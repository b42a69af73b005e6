import AdCoder.ProjectCalibration.Exact

/-!
# Calibration

A new snapshot is accepted just when its entries are in bounds, so that the order in which
records of different times stand in the journal does not matter.
-/

namespace AdCoder.ProjectCalibration

open Foundation UserProfiles

/-! ## Entries that are written -/

section Entries

variable {host : ProfileHost} {entry other : ProjectEconomicSnapshot}
  {entries : List ProjectEconomicSnapshot} {fields : List (String × Json)}

theorem shows_toJson (entry : ProjectEconomicSnapshot) : ∃ fields, entry.toJson = .obj fields ∧
    Shows fields entry ∧ Json.lookup "observedOn" fields = some (.str entry.observedOn) := by
  refine ⟨_, rfl, ⟨?_, ?_, ?_, ?_, ?_, ?_, ?_⟩, ?_⟩
  all_goals simp

theorem Shows.unique (shown : Shows fields entry) (shown' : Shows fields other)
    (day : entry.observedOn = other.observedOn) : entry = other := by
  have provider := shown.provider.symm.trans shown'.provider
  have model := shown.model.symm.trans shown'.model
  have kind := shown.kind.symm.trans shown'.kind
  have value := shown.value.symm.trans shown'.value
  have unit := shown.unit.symm.trans shown'.unit
  have source := shown.source.symm.trans shown'.source
  have confidence := shown.confidence.symm.trans shown'.confidence
  simp only [Option.some.injEq, Json.str.injEq, Json.num.injEq, JsNumber.finite.injEq]
    at provider model kind value unit source confidence
  have kinds : entry.kind = other.kind := by
    revert kind
    cases entry.kind <;> cases other.kind <;> decide
  have confidences : entry.confidence = other.confidence := by
    revert confidence
    cases entry.confidence <;> cases other.confidence <;> decide
  obtain ⟨_, _, _, _, _, _, _, _⟩ := entry
  simp_all

/-- The records as which entries are validated, from an index on. -/
def numbered : Nat → List ProjectEconomicSnapshot → List EconomicRecord
  | _, [] => []
  | index, entry :: rest => entry.record index :: numbered (index + 1) rest

theorem envelopeRecord_toJson (index : Nat) :
    envelopeRecord host index entry.toJson = .ok (entry.record index).toJson := by
  simp only [envelopeRecord, ProjectEconomicSnapshot.toJson, Json.object, members, bind_eq_ok,
    pure_eq_ok, Except.ok.injEq, exists_eq_left']
  refine ⟨entry.observedOn, by simp [text_str], ?_⟩
  simp [ProjectEconomicSnapshot.record, EconomicRecord.toJson, Json.object, Json.fields]

theorem envelopeRecords_toJson (index : Nat) :
    envelopeRecords host index (entries.map (·.toJson)) =
      .ok ((numbered index entries).map (·.toJson)) := by
  induction entries generalizing index with
  | nil => rfl
  | cons entry rest ih =>
      rw [List.map_cons, envelopeRecords, envelopeRecord_toJson, ih]
      rfl

theorem filled_of_head {text : String} {x : Char} {rest : List Char} (whole : text.toList = x :: rest)
    (solid : Regex.isSpace x = false) : filled text = true := by
  have kept : trimList text.toList ≠ [] := by
    rw [whole, trimList, List.dropWhile_cons_of_neg (by simp [solid]), ne_eq, List.reverse_eq_nil_iff,
      List.dropWhile_eq_nil_iff]
    intro all
    simpa [solid] using all x (by simp)
  rw [filled, bne_iff_ne, trim]
  intro empty
  exact kept (by simpa using congrArg String.toList empty)

theorem index_inj {k index : Nat} (same : "snapshot-" ++ toString k = "snapshot-" ++ toString index) :
    k = index := by
  have texts : Nat.toDigits 10 k = Nat.toDigits 10 index := by
    simpa only [Nat.toString_eq_repr, Nat.toList_repr] using
      congrArg String.toList ((String.append_right_inj _).mp same)
  have read := Nat.ofDigitChars_ten_toDigits (n := k)
  rw [texts, Nat.ofDigitChars_ten_toDigits] at read
  exact read.symm

theorem valid_record (valid : entry.Valid host) (index : Nat) : (entry.record index).Valid host where
  id := by
    have whole : (entry.record index).id.toList =
        's' :: ("napshot-".toList ++ (toString index).toList) := by
      rw [ProjectEconomicSnapshot.record, String.toList_append]
      rfl
    exact filled_of_head whole (by decide)
  observedAt := valid.observedOn
  provider := valid.provider
  model := valid.model
  unit := valid.unit
  source := valid.source
  previousId := by rintro _ ⟨⟩

theorem mem_numbered {index : Nat} {record : EconomicRecord} (mem : record ∈ numbered index entries) :
    ∃ entry ∈ entries, ∃ k, index ≤ k ∧ record = entry.record k := by
  induction entries generalizing index with
  | nil => cases mem
  | cons entry rest ih =>
      obtain rfl | mem := List.mem_cons.mp mem
      · exact ⟨entry, List.mem_cons_self, index, le_refl _, rfl⟩
      · obtain ⟨other, among, k, bound, rfl⟩ := ih mem
        exact ⟨other, List.mem_cons_of_mem _ among, k, by omega, rfl⟩

theorem journal_numbered {before : List EconomicRecord} {index : Nat}
    (each : ∀ entry ∈ entries, entry.Valid host)
    (earlier : ∀ record ∈ before, ∃ k < index, record.id = "snapshot-" ++ toString k) :
    JournalAfter before (numbered index entries) := by
  induction entries generalizing before index with
  | nil => trivial
  | cons entry rest ih =>
      rw [List.forall_mem_cons] at each
      refine ⟨⟨?_, each.1.value, by rintro _ ⟨⟩⟩, ih each.2 ?_⟩
      · intro mem
        obtain ⟨record, among, same⟩ := List.mem_map.mp mem
        obtain ⟨k, less, named⟩ := earlier record among
        have equal : k = index := index_inj (named.symm.trans same)
        omega
      · intro record mem
        obtain mem | mem := List.mem_append.mp mem
        · obtain ⟨k, less, named⟩ := earlier record mem
          exact ⟨k, by omega, named⟩
        · rw [List.mem_singleton.mp mem]
          exact ⟨index, by omega, rfl⟩

end Entries

/-! ## Snapshots that are made -/

section Made

variable {host : ProfileHost} {snapshot made : ProjectCalibrationSnapshot}
  {entries : List ProjectEconomicSnapshot}

/-- The parts of a snapshot other than its entries come from a valid profile. -/
structure Sourced (host : ProfileHost) (snapshot : ProjectCalibrationSnapshot) : Prop where
  modelsProfile : filled snapshot.modelsProfile = true
  routing : snapshot.routing.Valid
  observedOn : filled snapshot.observedOn = true ∧ Iso.isDate snapshot.observedOn = true
  ranges : ∀ range ∈ snapshot.subscriptionCapacityRanges, range.Valid host
  rangeKeys : (snapshot.subscriptionCapacityRanges.map (·.key)).Nodup

/-- What else the parser asks of a snapshot that is made. -/
structure Acceptable (host : ProfileHost) (entries : List ProjectEconomicSnapshot) : Prop where
  label : acceptsSource host "project-calibration" = true
  each : ∀ entry ∈ entries, ProjectEconomicSnapshot.Valid host entry

/-- The profile as which such a snapshot is validated. -/
def envelopeProfile (snapshot : ProjectCalibrationSnapshot)
    (entries : List ProjectEconomicSnapshot) : UserProfile where
  calibratedRouting := [snapshot.calibrated]
  economicRecords := numbered 0 entries
  subscriptionCapacityRanges := snapshot.subscriptionCapacityRanges
  capabilities := none

theorem valid_envelopeProfile (sourced : Sourced host snapshot) (fine : Acceptable host entries) :
    (envelopeProfile snapshot entries).Valid host where
  routing routing mem := by
    obtain rfl := List.mem_singleton.mp mem
    have full : filled "project-calibration" = true := by
      exact @filled_of_head _ 'p' "roject-calibration".toList rfl (by decide)
    exact ⟨sourced.modelsProfile, sourced.routing, sourced.observedOn, full, fine.label⟩
  routingKeys := List.nodup_singleton _
  records record mem := by
    obtain ⟨entry, among, k, -, rfl⟩ := mem_numbered mem
    exact valid_record (fine.each entry among) k
  journal := journal_numbered fine.each fun _ mem => by cases mem
  ranges := sourced.ranges
  rangeKeys := sourced.rangeKeys
  capabilities := by rintro _ ⟨⟩

theorem map_spread_toJson : (entries.map (·.toJson)).map spread = entries.map (·.toJson) := by
  rw [List.map_map]
  exact List.map_congr_left fun _ _ => rfl

/-- A snapshot with entries in bounds is accepted as it is. -/
theorem parse_made (sourced : Sourced host snapshot) (fine : Acceptable host entries)
    (economics : snapshot.economics = entries.map (·.toJson)) :
    parseProjectCalibrationSnapshot host snapshot.toJson = .ok snapshot := by
  have valid := valid_envelopeProfile sourced fine
  have enveloped : envelopeRecords host 0 snapshot.economics =
      .ok ((numbered 0 entries).map (·.toJson)) := by
    rw [economics, envelopeRecords_toJson]
  have objects : snapshot.economics.map spread = snapshot.economics := by
    rw [economics, map_spread_toJson]
  refine parse_toJson valid rfl rfl enveloped ?_ rfl objects
  exact mapM_map_eq_ok fun record mem => parseEconomicRecord_again (valid.records record mem)

/-- A snapshot is accepted only with entries in bounds. -/
theorem acceptable_of_parse (economics : snapshot.economics = entries.map (·.toJson))
    (parsed : parseProjectCalibrationSnapshot host snapshot.toJson = .ok made) :
    Acceptable host entries := by
  obtain ⟨fields, items, profile, whole, accepts⟩ := parseProjectCalibrationSnapshot_eq_ok.mp parsed
  have held : items = entries.map (·.toJson) := by
    have found := accepts.entries
    rw [← Json.obj.inj whole] at found
    rw [← economics]
    simpa using found.symm
  refine ⟨?_, fun entry mem => ?_⟩
  · obtain ⟨records, -, read⟩ := accepts.records
    obtain ⟨-, -, valid, -⟩ := parseUserProfile_eq_ok.mp read
    exact (valid.routing made.calibrated (by simp [accepts_calibrated accepts])).source.2
  · obtain ⟨inner, other, same, valid, shown, day⟩ := accepted_entries accepts entry.toJson
      (by rw [held]; exact List.mem_map_of_mem mem)
    obtain ⟨inner', same', shown', day'⟩ := shows_toJson entry
    obtain rfl := Json.obj.inj (same.symm.trans same')
    rw [day', text_str] at day
    rwa [Shows.unique shown' shown (Except.ok.inj day)]

theorem parse_made_iff (sourced : Sourced host snapshot)
    (economics : snapshot.economics = entries.map (·.toJson)) :
    parseProjectCalibrationSnapshot host snapshot.toJson = .ok made ↔
      Acceptable host entries ∧ made = snapshot := by
  constructor
  · intro parsed
    have fine := acceptable_of_parse economics parsed
    rw [parse_made sourced fine economics] at parsed
    exact ⟨fine, (Except.ok.inj parsed).symm⟩
  · rintro ⟨fine, rfl⟩
    exact parse_made sourced fine economics

end Made

/-! ## Creation -/

section Creation

variable {host : CalibrationHost} {value : Json} {source : CalibrationSourceRef}
  {limits : ProjectCalibrationLimits} {snapshot : ProjectCalibrationSnapshot}
  {profile : UserProfile} {routing : CalibratedRouting}

/-- The routing that a source is calibrated by. -/
def routingFor (source : CalibrationSourceRef) (profile : UserProfile) : Option CalibratedRouting :=
  profile.calibratedRouting.find? fun routing => routing.modelsProfile == source.name

def declaredFor (source : CalibrationSourceRef) (routing : CalibratedRouting) :
    List EconomicRecord :=
  declarations source (routing.observedOn ++ midnight)

/-- The entries of a new snapshot of a profile. -/
def entriesFor (host : CalibrationHost) (source : CalibrationSourceRef) (profile : UserProfile)
    (routing : CalibratedRouting) : List ProjectEconomicSnapshot :=
  newEntries host source profile.economicRecords (declaredFor source routing)

def capacityFor (source : CalibrationSourceRef) (profile : UserProfile) :
    List SubscriptionCapacityRange :=
  profile.subscriptionCapacityRanges.filter fun range =>
    (source.providers.map (·.id)).contains range.provider

def newSnapshot (host : CalibrationHost) (source : CalibrationSourceRef) (profile : UserProfile)
    (routing : CalibratedRouting) : ProjectCalibrationSnapshot where
  modelsProfile := source.name
  routing := routing.profile
  observedOn := routing.observedOn
  economics := (entriesFor host source profile routing).map (·.toJson)
  subscriptionCapacityRanges := capacityFor source profile

/-- The limits admit so many entries and ranges. -/
def Admits (limits : ProjectCalibrationLimits) (economics capacity : Nat) : Prop :=
  ∃ maxEconomics maxCapacity, limit limits.maxEconomics "maxEconomics" 256 = .ok maxEconomics ∧
    limit limits.maxCapacityRanges "maxCapacityRanges" 64 = .ok maxCapacity ∧
    (0 < maxEconomics → economics ≤ maxEconomics) ∧ (0 < maxCapacity → capacity ≤ maxCapacity)

theorem sourced_newSnapshot (valid : profile.Valid host.toProfileHost)
    (found : routingFor source profile = some routing) :
    Sourced host.toProfileHost (newSnapshot host source profile routing) := by
  have sound := valid.routing routing (List.mem_of_find?_eq_some found)
  have named : routing.modelsProfile = source.name := by simpa using List.find?_some found
  refine ⟨?_, sound.profile, sound.observedOn, fun range mem => ?_, ?_⟩
  · rw [newSnapshot, ← named]
    exact sound.modelsProfile
  · exact valid.ranges range (List.mem_filter.mp mem).1
  · exact valid.rangeKeys.sublist (List.filter_sublist.map _)

theorem createProjectCalibrationSnapshot_eq_ok :
    createProjectCalibrationSnapshot host value source limits = .ok snapshot ↔
      ∃ profile routing, parseUserProfile host.toProfileHost value = .ok profile ∧
        routingFor source profile = some routing ∧
        outsideEntry source routing.profile.entries = none ∧
        Admits limits (entriesFor host source profile routing).length
          (capacityFor source profile).length ∧
        Acceptable host.toProfileHost (entriesFor host source profile routing) ∧
        snapshot = newSnapshot host source profile routing := by
  simp only [createProjectCalibrationSnapshot, bind_eq_ok, mapError_eq_ok]
  constructor
  · rintro ⟨profile, parsed, h⟩
    obtain ⟨-, -, valid, -⟩ := parseUserProfile_eq_ok.mp parsed
    cases found : routingFor source profile with
    | none =>
        rw [routingFor] at found
        rw [found] at h
        exact absurd h throw_ne_ok
    | some routing =>
        have found' := found
        rw [routingFor] at found'
        rw [found'] at h
        cases outside : outsideEntry source routing.profile.entries with
        | some entry =>
            simp only [outside] at h
            exact absurd h throw_ne_ok
        | none =>
            simp only [outside, bind_eq_ok, require_eq_ok, Bool.not_eq_true', Bool.or_eq_false_iff,
              Bool.and_eq_false_iff, decide_eq_false_iff_not, not_lt] at h
            obtain ⟨maxEconomics, hmax, maxCapacity, hcap, _, ⟨few, few'⟩, h⟩ := h
            obtain ⟨fine, rfl⟩ := (parse_made_iff (sourced_newSnapshot valid found) rfl).mp h
            refine ⟨profile, routing, parsed, found, outside,
              ⟨maxEconomics, maxCapacity, hmax, hcap, ?_, ?_⟩, fine, rfl⟩
            · intro positive
              exact few.resolve_left (by omega)
            · intro positive
              exact few'.resolve_left (by omega)
  · rintro ⟨profile, routing, parsed, found, outside, ⟨maxEconomics, maxCapacity, hmax, hcap, few,
      few'⟩, fine, rfl⟩
    obtain ⟨-, -, valid, -⟩ := parseUserProfile_eq_ok.mp parsed
    refine ⟨profile, parsed, ?_⟩
    have found' := found
    rw [routingFor] at found'
    simp only [found', outside, bind_eq_ok, require_eq_ok, Bool.not_eq_true', Bool.or_eq_false_iff,
      Bool.and_eq_false_iff, decide_eq_false_iff_not, not_lt]
    refine ⟨maxEconomics, hmax, maxCapacity, hcap, (), ⟨?_, ?_⟩,
      parse_made (sourced_newSnapshot valid found) fine rfl⟩
    · by_cases positive : 0 < maxEconomics
      · exact .inr (few positive)
      · exact .inl (by omega)
    · by_cases positive : 0 < maxCapacity
      · exact .inr (few' positive)
      · exact .inl (by omega)

/-! ### The order of the journal -/

/-- The profiles differ in the order of records of different times only. -/
structure Reordered (profile other : UserProfile) : Prop where
  others : other = { profile with economicRecords := other.economicRecords }
  times : ∀ at_, (profile.economicRecords.filter fun record => record.observedAt = at_) =
    other.economicRecords.filter fun record => record.observedAt = at_

theorem winner_reordered {records others declared : List EconomicRecord} {c : String}
    (stamps : ∀ record ∈ records, Iso.isTimestamp record.observedAt = true)
    (stamps' : ∀ record ∈ others, Iso.isTimestamp record.observedAt = true)
    (times : ∀ at_, (records.filter fun record => record.observedAt = at_) =
      others.filter fun record => record.observedAt = at_) :
    winner source records declared c = winner source others declared c := by
  -- Records of one sequence of units are of one text, as all of them are timestamps.
  have level {items : List EconomicRecord}
      (stamped : ∀ record ∈ items, Iso.isTimestamp record.observedAt = true) {at_ : String}
      (stamp : Iso.isTimestamp at_ = true) :
      (items.filter fun record => timeUnits record = codeUnits at_) =
        items.filter fun record => record.observedAt = at_ := by
    refine List.filter_congr fun record mem => ?_
    rw [decide_eq_decide]
    exact ⟨Iso.codeUnits_inj_timestamp (stamped record mem) stamp, fun same => congrArg codeUnits same⟩
  have same : ∀ s, (records.filter fun record => timeUnits record = s) =
      others.filter fun record => timeUnits record = s := by
    intro s
    by_cases some_ : ∃ record ∈ records ++ others, timeUnits record = s
    · obtain ⟨record, mem, rfl⟩ := some_
      have stamp : Iso.isTimestamp record.observedAt = true := by
        obtain mem | mem := List.mem_append.mp mem
        · exact stamps record mem
        · exact stamps' record mem
      exact (level stamps stamp).trans ((times _).trans (level stamps' stamp).symm)
    · have none_ {items : List EconomicRecord} (within : ∀ record ∈ items, record ∈ records ++ others) :
          (items.filter fun record => timeUnits record = s) = [] := by
        rw [List.filter_eq_nil_iff]
        exact fun record mem alike => some_ ⟨record, within record mem, of_decide_eq_true alike⟩
      rw [none_ fun _ mem => List.mem_append_left _ mem, none_ fun _ mem => List.mem_append_right _ mem]
  rw [winner, winner, firstGreatest_congr fun s => ?_]
  have counted := congrArg (List.filter (countsFor source c)) (same s)
  rw [List.filter_comm (countsFor source c), List.filter_comm (countsFor source c)] at counted
  convert counted

theorem entriesFor_reordered {other : UserProfile} (valid : profile.Valid host.toProfileHost)
    (valid' : other.Valid host.toProfileHost) (reordered : Reordered profile other) :
    (entriesFor host source other routing).Perm (entriesFor host source profile routing) := by
  have same (c : String) : winner source profile.economicRecords (declaredFor source routing) c =
      winner source other.economicRecords (declaredFor source routing) c :=
    winner_reordered (fun record mem => (valid.records record mem).observedAt.2)
      (fun record mem => (valid'.records record mem).observedAt.2) reordered.times
  refine newEntries_perm.trans (((List.Perm.map _ ?_).map _).trans newEntries_perm.symm)
  refine (List.perm_ext_iff_of_nodup nodup_latestRecords.of_map nodup_latestRecords.of_map).mpr ?_
  rintro ⟨c, record⟩
  rw [mem_latestRecords, mem_latestRecords, same]

/-- A journal in another order makes a snapshot with the same entries. -/
theorem create_reordered {value' : Json} {other : UserProfile}
    (created : createProjectCalibrationSnapshot host value source limits = .ok snapshot)
    (parsed : parseUserProfile host.toProfileHost value = .ok profile)
    (parsed' : parseUserProfile host.toProfileHost value' = .ok other)
    (reordered : Reordered profile other) :
    ∃ snapshot', createProjectCalibrationSnapshot host value' source limits = .ok snapshot' ∧
      snapshot'.economics.Perm snapshot.economics := by
  obtain ⟨_, routing, again, found, outside, admits, fine, rfl⟩ :=
    createProjectCalibrationSnapshot_eq_ok.mp created
  obtain rfl : profile = _ := Except.ok.inj (parsed.symm.trans again)
  obtain ⟨-, -, valid, -⟩ := parseUserProfile_eq_ok.mp parsed
  obtain ⟨-, -, valid', -⟩ := parseUserProfile_eq_ok.mp parsed'
  have perm : (entriesFor host source other routing).Perm (entriesFor host source profile routing) :=
    entriesFor_reordered valid valid' reordered
  have found' : routingFor source other = some routing := by
    rw [reordered.others]
    exact found
  have capacity : capacityFor source other = capacityFor source profile := by
    rw [reordered.others]
    rfl
  refine ⟨newSnapshot host source other routing, createProjectCalibrationSnapshot_eq_ok.mpr
    ⟨other, routing, parsed', found', outside, ?_, ⟨fine.label, fun entry mem => ?_⟩, rfl⟩,
    perm.map _⟩
  · rw [perm.length_eq, capacity]
    exact admits
  · exact fine.each entry (perm.mem_iff.mp mem)

/-- What is created has exactly the entries in scope, whatever the order of the journal. -/
def SnapshotExact (host : CalibrationHost) (value : Json) (source : CalibrationSourceRef)
    (limits : ProjectCalibrationLimits) : Prop :=
  ∀ snapshot profile routing,
    createProjectCalibrationSnapshot host value source limits = .ok snapshot →
    parseUserProfile host.toProfileHost value = .ok profile →
    routingFor source profile = some routing →
    (∃ entries : List ProjectEconomicSnapshot, snapshot.economics = entries.map (·.toJson) ∧
      ExactEntries source profile.economicRecords (declaredFor source routing) entries) ∧
    ∀ value' other, parseUserProfile host.toProfileHost value' = .ok other →
      Reordered profile other →
      ∃ snapshot', createProjectCalibrationSnapshot host value' source limits = .ok snapshot' ∧
        snapshot'.economics.Perm snapshot.economics

/-- The keys of the journal and the declarations are unambiguous. -/
def ClearKeys (host : CalibrationHost) (value : Json) (source : CalibrationSourceRef)
    (limits : ProjectCalibrationLimits) : Prop :=
  (createProjectCalibrationSnapshot host value source limits).isOk = true →
    ∀ profile routing, parseUserProfile host.toProfileHost value = .ok profile →
      routingFor source profile = some routing →
      Unambiguous source profile.economicRecords (declaredFor source routing)

theorem toJson_entries_inj {entries others : List ProjectEconomicSnapshot}
    (same : entries.map (·.toJson) = others.map (·.toJson)) : entries = others := by
  refine List.map_injective_iff.mpr (fun entry other alike => ?_) same
  obtain ⟨fields, whole, shown, day⟩ := shows_toJson entry
  obtain ⟨fields', whole', shown', day'⟩ := shows_toJson other
  obtain rfl := Json.obj.inj ((whole.symm.trans alike).trans whole')
  exact shown.unique shown' (Json.str.inj (Option.some.inj (day.symm.trans day')))

theorem snapshotExact_iff :
    SnapshotExact host value source limits ↔ ClearKeys host value source limits := by
  constructor
  · intro exact_ accepted profile routing parsed found
    cases created : createProjectCalibrationSnapshot host value source limits with
    | error failure =>
        rw [created] at accepted
        cases accepted
    | ok snapshot =>
        obtain ⟨⟨entries, economics, exactly⟩, -⟩ := exact_ snapshot profile routing created parsed found
        obtain ⟨_, _, again, found', -, -, fine, rfl⟩ :=
          createProjectCalibrationSnapshot_eq_ok.mp created
        obtain rfl : profile = _ := Except.ok.inj (parsed.symm.trans again)
        obtain rfl : routing = _ := Option.some.inj (found.symm.trans found')
        obtain rfl : entriesFor host source profile routing = entries := toJson_entries_inj economics
        obtain ⟨-, -, valid, -⟩ := parseUserProfile_eq_ok.mp parsed
        exact unambiguous_of_exactEntries (fun record mem => (valid.records record mem).observedAt.2)
          (fun entry mem => (fine.each entry mem).observedOn.2) exactly
  · intro clear snapshot profile routing created parsed found
    have unambiguous := clear (by rw [created]; rfl) profile routing parsed found
    refine ⟨?_, fun value' other parsed' => create_reordered created parsed parsed'⟩
    obtain ⟨_, _, again, found', -, -, fine, rfl⟩ :=
      createProjectCalibrationSnapshot_eq_ok.mp created
    obtain rfl : profile = _ := Except.ok.inj (parsed.symm.trans again)
    obtain rfl : routing = _ := Option.some.inj (found.symm.trans found')
    obtain ⟨-, -, valid, -⟩ := parseUserProfile_eq_ok.mp parsed
    exact ⟨_, rfl, exactEntries_of_unambiguous
      (fun record mem => (valid.records record mem).observedAt.2)
      (fun entry mem => (fine.each entry mem).observedOn.2) unambiguous⟩

end Creation

/-- What is parsed is closed and what is created is exact, just when the stored entries are plain
and the keys are clear. -/
theorem calibration_iff (host : CalibrationHost) (stored value : Json)
    (source : CalibrationSourceRef) (limits : ProjectCalibrationLimits) :
    SnapshotClosed host.toProfileHost stored ∧ SnapshotExact host value source limits ↔
      ((parseProjectCalibrationSnapshot host.toProfileHost stored).isOk = true →
        PlainEntries stored) ∧ ClearKeys host value source limits := by
  rw [snapshotClosed_iff, snapshotExact_iff]

/-! ### An entry with a note -/

/-- A host for which no source label is a URL. -/
def labelHost : CalibrationHost where
  parseUrl _ := none
  format := decimalFormat
  decimal := decimalFormat_decimal
  localeCompare a b := if a < b then -1 else if b < a then 1 else 0

def notedEntry : ProjectEconomicSnapshot where
  provider := "p"
  model := "m"
  kind := .price
  value := 1
  unit := "u"
  observedOn := "2025-01-01"
  source := "benchmark"
  confidence := .measured

/-- The entry, with a field that is not declared. -/
def notedJson : Json := .obj [
  ("provider", .str "p"), ("model", .str "m"), ("kind", .str "price"), ("value", .num 1),
  ("unit", .str "u"), ("observedOn", .str "2025-01-01"), ("source", .str "benchmark"),
  ("confidence", .str "measured"), ("note", .str "n")]

def notedSnapshot : ProjectCalibrationSnapshot where
  modelsProfile := "main"
  routing := ⟨[⟨.coder, .trivial, "m", none, none, none⟩]⟩
  observedOn := "2025-01-01"
  economics := [notedJson]
  subscriptionCapacityRanges := []

theorem valid_notedEntry : notedEntry.Valid labelHost.toProfileHost := by
  refine ⟨?_, ?_, ?_, ?_, ⟨?_, ?_⟩, ?_, ?_⟩
  all_goals decide +kernel

theorem sourced_notedSnapshot : Sourced labelHost.toProfileHost notedSnapshot := by
  refine ⟨by decide +kernel, ⟨by simp [notedSnapshot], by simp [notedSnapshot], ?_⟩,
    ⟨by decide +kernel, by decide +kernel⟩, ?_, List.nodup_nil⟩
  · intro entry mem
    obtain rfl := List.mem_singleton.mp mem
    exact ⟨by decide, by rintro _ ⟨⟩⟩
  · rintro _ ⟨⟩

/-- The note is accepted and returned. -/
theorem parse_notedSnapshot :
    parseProjectCalibrationSnapshot labelHost.toProfileHost notedSnapshot.toJson =
      .ok notedSnapshot := by
  have fine : Acceptable labelHost.toProfileHost [notedEntry] := by
    refine ⟨by decide +kernel, ?_⟩
    simpa using valid_notedEntry
  have valid := valid_envelopeProfile sourced_notedSnapshot fine
  have enveloped : envelopeRecords labelHost.toProfileHost 0 notedSnapshot.economics =
      .ok ((numbered 0 [notedEntry]).map (·.toJson)) := rfl
  refine parse_toJson valid rfl rfl enveloped ?_ rfl rfl
  exact mapM_map_eq_ok fun record mem => parseEconomicRecord_again (valid.records record mem)

theorem calibration_refuted :
    ¬ (SnapshotClosed labelHost.toProfileHost notedSnapshot.toJson ∧
      SnapshotExact labelHost notedSnapshot.toJson ⟨"main", [], []⟩ ⟨none, none⟩) := by
  rintro ⟨closed, -⟩
  obtain ⟨entry, -, _, ⟨⟩, known, -⟩ :=
    (closed notedSnapshot parse_notedSnapshot).1 notedJson List.mem_cons_self
  exact absurd (known ("note", .str "n") (by simp)) (by decide)

end AdCoder.ProjectCalibration
