import AdCoder.ProjectCalibration.Snapshot

/-!
# What a parsed snapshot holds

Each economic entry of an accepted snapshot has the fields of a record, in bounds; whether it
has these alone is not checked, nor that its day is a text. A parsed snapshot is parsed again
as it is.
-/

namespace AdCoder.ProjectCalibration

open Foundation UserProfiles
open Profiles (Profile parseProfile)
open ProjectOperations (displayed display)

section Parsing

variable {host : ProfileHost} {value : Json} {snapshot : ProjectCalibrationSnapshot}
  {fields : List (String × Json)} {economics records : List Json} {profile : UserProfile}

def snapshotShape : String :=
  "economics,modelsProfile,observedOn,routing,subscriptionCapacityRanges,version"

/-- What the parser reads of an object that it accepts. -/
structure Accepts (host : ProfileHost) (fields : List (String × Json)) (economics : List Json)
    (profile : UserProfile) (snapshot : ProjectCalibrationSnapshot) : Prop where
  inventory : Json.lookup "inventory" fields = none
  shape : shape fields = snapshotShape
  version : Json.lookup "version" fields = some (.num profileVersion)
  entries : Json.lookup "economics" fields = some (.arr economics)
  ranges : ∃ ranges, Json.lookup "subscriptionCapacityRanges" fields = some (.arr ranges)
  records : ∃ records, envelopeRecords host 0 economics = .ok records ∧
    parseUserProfile host (envelope fields records) = .ok profile
  observedOn : text host (Json.lookup "observedOn" fields) = .ok snapshot.observedOn
  date : Iso.isDate snapshot.observedOn = true
  routing : parseProfile ((Json.lookup "routing" fields).getD .null) = .ok snapshot.routing
  modelsProfile : ∃ calibrated rest, profile.calibratedRouting = calibrated :: rest ∧
    calibrated.modelsProfile = snapshot.modelsProfile
  kept : snapshot.economics = economics.map spread
  capacity : snapshot.subscriptionCapacityRanges = profile.subscriptionCapacityRanges

theorem items_eq_ok {held : Option Json} {found : List Json} :
    items held = .ok found ↔ held = some (.arr found) := by
  unfold items
  split <;> simp_all

theorem parseProjectCalibrationSnapshot_eq_ok :
    parseProjectCalibrationSnapshot host value = .ok snapshot ↔
      ∃ fields economics profile, value = .obj fields ∧
        Accepts host fields economics profile snapshot := by
  simp only [parseProjectCalibrationSnapshot, bind_eq_ok, mapError_eq_ok, object_eq_ok,
    Option.some.injEq]
  constructor
  · rintro ⟨fields, rfl, h⟩
    refine ⟨fields, ?_⟩
    split at h
    · exact absurd h throw_ne_ok
    · next absent =>
        simp only [bind_eq_ok, require_eq_ok, Bool.and_eq_true, beq_iff_eq, isVersion_iff, items_eq_ok,
          mapError_eq_ok] at h
        obtain ⟨-, ⟨whole, version⟩, economics, held, ranges, capacity, records, enveloped, profile,
          parsed, on, shown, -, date, routing, routed, h⟩ := h
        split at h
        · exact absurd h throw_ne_ok
        · next calibrated rest listed =>
            obtain rfl := pure_eq_ok.mp h
            exact ⟨economics, profile, rfl, absent, whole, version, held, ⟨ranges, capacity⟩,
              ⟨records, enveloped, parsed⟩, shown, date, routed, ⟨calibrated, rest, listed, rfl⟩,
              rfl, rfl⟩
  · rintro ⟨fields, economics, profile, rfl, accepts⟩
    refine ⟨fields, rfl, ?_⟩
    obtain ⟨ranges, capacity⟩ := accepts.ranges
    obtain ⟨records, enveloped, parsed⟩ := accepts.records
    obtain ⟨calibrated, rest, listed, named⟩ := accepts.modelsProfile
    simp only [accepts.inventory, bind_eq_ok, require_eq_ok, Bool.and_eq_true, beq_iff_eq,
      isVersion_iff, items_eq_ok, mapError_eq_ok]
    refine ⟨(), ⟨accepts.shape, accepts.version⟩, economics, accepts.entries, ranges, capacity,
      records, enveloped, profile, parsed, _, accepts.observedOn, (), accepts.date, _,
      accepts.routing, ?_⟩
    simp only [listed, pure_eq_ok]
    obtain ⟨modelsProfile, routing, observedOn, kept, taken⟩ := snapshot
    obtain rfl : kept = economics.map spread := accepts.kept
    obtain rfl : taken = profile.subscriptionCapacityRanges := accepts.capacity
    obtain rfl : calibrated.modelsProfile = modelsProfile := named
    rfl

/-! ## Entries -/

/-- An entry whose fields are in the bounds of a record. -/
structure ProjectEconomicSnapshot.Valid (host : ProfileHost) (entry : ProjectEconomicSnapshot) :
    Prop where
  provider : filled entry.provider = true
  model : filled entry.model = true
  value : 0 ≤ entry.value
  unit : filled entry.unit = true
  observedOn : filled (entry.observedOn ++ midnight) = true ∧
    Iso.isTimestamp (entry.observedOn ++ midnight) = true
  source : filled entry.source = true ∧ acceptsSource host entry.source = true

/-- The members of an object are those of an entry, whatever its day is. -/
structure Shows (fields : List (String × Json)) (entry : ProjectEconomicSnapshot) : Prop where
  provider : Json.lookup "provider" fields = some (.str entry.provider)
  model : Json.lookup "model" fields = some (.str entry.model)
  kind : Json.lookup "kind" fields = some (.str entry.kind.text)
  value : Json.lookup "value" fields = some (.num (.finite entry.value))
  unit : Json.lookup "unit" fields = some (.str entry.unit)
  source : Json.lookup "source" fields = some (.str entry.source)
  confidence : Json.lookup "confidence" fields = some (.str entry.confidence.text)

/-- The record as which an entry is validated. -/
def ProjectEconomicSnapshot.record (entry : ProjectEconomicSnapshot) (index : Nat) :
    EconomicRecord where
  id := "snapshot-" ++ toString index
  observedAt := entry.observedOn ++ midnight
  provider := entry.provider
  model := entry.model
  kind := entry.kind
  value := entry.value
  unit := entry.unit
  source := entry.source
  confidence := entry.confidence
  previousId := none

/-- The entry of a record, when its day is given. -/
def entryOf (record : EconomicRecord) (observedOn : String) : ProjectEconomicSnapshot where
  provider := record.provider
  model := record.model
  kind := record.kind
  value := record.value
  unit := record.unit
  observedOn := observedOn
  source := record.source
  confidence := record.confidence

theorem envelopeRecord_eq_ok {index : Nat} {item record : Json}
    (h : envelopeRecord host index item = .ok record) {parsed : EconomicRecord}
    (read : parseEconomicRecord host record = .ok parsed) (positive : 0 ≤ parsed.value) :
    ∃ fields entry, item = .obj fields ∧ entry.Valid host ∧ Shows fields entry ∧
      text host (Json.lookup "observedOn" fields) = .ok entry.observedOn ∧
      parsed = entry.record index := by
  simp only [envelopeRecord, bind_eq_ok, pure_eq_ok] at h
  obtain ⟨fields, inside, on, shown, rfl⟩ := h
  obtain ⟨_, same, valid, described⟩ := parseEconomicRecord_eq_ok.mp read
  obtain rfl := Json.obj.inj same
  have id := described.id
  have observedAt := described.observedAt
  have provider := described.provider
  have model := described.model
  have kind := described.kind
  have value := described.value
  have unit := described.unit
  have source := described.source
  have confidence := described.confidence
  have previousId := described.previousId
  simp only [Json.lookup_fields_cons, Json.lookup_fields_nil, String.reduceEq, if_true, if_false,
    Option.or_none, Option.some_or, Option.some.injEq, Json.str.injEq]
    at id observedAt provider model kind value unit source confidence previousId
  have object : item = .obj fields := by
    unfold members at inside
    split at inside
    · cases inside
    · rw [Except.ok.inj inside]
    · obtain rfl := Except.ok.inj inside
      simp [Json.lookup] at provider
  refine ⟨fields, entryOf parsed on, object, ?_, ?_, shown, ?_⟩
  · refine ⟨valid.provider, valid.model, positive, valid.unit, ?_, valid.source⟩
    rw [show (entryOf parsed on).observedOn ++ midnight = parsed.observedAt from observedAt]
    exact valid.observedAt
  · exact ⟨provider, model, kind, value, unit, source, confidence⟩
  · obtain ⟨_, _, _, _, _, _, _, _, _, previous⟩ := parsed
    have absent : previous = none := by simpa using previousId.symm
    subst absent
    simp only [ProjectEconomicSnapshot.record, entryOf]
    rw [id, observedAt]

theorem journal_value {before rest : List EconomicRecord} (journal : JournalAfter before rest) :
    ∀ record ∈ rest, 0 ≤ record.value := by
  induction rest generalizing before with
  | nil => simp
  | cons record rest ih => exact List.forall_mem_cons.mpr ⟨journal.1.value, ih journal.2⟩

theorem envelopeRecords_eq_ok {index : Nat} {items : List Json} {parsed : List EconomicRecord}
    (h : envelopeRecords host index items = .ok records)
    (read : records.mapM (parseEconomicRecord host) = .ok parsed)
    (positive : ∀ record ∈ parsed, 0 ≤ record.value) :
    ∀ item ∈ items, ∃ fields entry, item = .obj fields ∧ entry.Valid host ∧ Shows fields entry ∧
      text host (Json.lookup "observedOn" fields) = .ok entry.observedOn := by
  induction items generalizing index records parsed with
  | nil => simp
  | cons item rest ih =>
      simp only [envelopeRecords, bind_eq_ok, pure_eq_ok] at h
      obtain ⟨record, first, more, later, rfl⟩ := h
      simp only [List.mapM_cons, bind_eq_ok, pure_eq_ok] at read
      obtain ⟨head, readHead, tail, readTail, rfl⟩ := read
      rw [List.forall_mem_cons] at positive ⊢
      refine ⟨?_, ih later readTail positive.2⟩
      obtain ⟨fields, entry, whole, valid, shows_, shown, -⟩ :=
        envelopeRecord_eq_ok first readHead positive.1
      exact ⟨fields, entry, whole, valid, shows_, shown⟩

/-- What is accepted of every economic entry. -/
theorem accepted_entries (accepts : Accepts host fields economics profile snapshot) :
    ∀ item ∈ economics, ∃ fields entry, item = .obj fields ∧
      ProjectEconomicSnapshot.Valid host entry ∧ Shows fields entry ∧
      text host (Json.lookup "observedOn" fields) = .ok entry.observedOn := by
  obtain ⟨records, enveloped, parsed⟩ := accepts.records
  obtain ⟨_, same, valid, described⟩ := parseUserProfile_eq_ok.mp parsed
  obtain ⟨found, held, read⟩ := described.records
  obtain rfl := Json.obj.inj same
  obtain rfl : records = found := by simpa using held
  exact envelopeRecords_eq_ok enveloped read (journal_value valid.journal)

theorem map_spread (accepts : Accepts host fields economics profile snapshot) :
    economics.map spread = economics := by
  refine (List.map_congr_left fun item mem => ?_).trans (List.map_id _)
  obtain ⟨inner, -, rfl, -⟩ := accepted_entries accepts item mem
  rfl

/-! ## Parsing again -/

/-- The routing as which that of a snapshot is validated. -/
def ProjectCalibrationSnapshot.calibrated (snapshot : ProjectCalibrationSnapshot) :
    CalibratedRouting where
  modelsProfile := snapshot.modelsProfile
  profile := snapshot.routing
  observedOn := snapshot.observedOn
  source := "project-calibration"
  confidence := .measured

theorem text_str (s : String) : text host (some (.str s)) = .ok s := rfl

theorem accepts_calibrated (accepts : Accepts host fields economics profile snapshot) :
    profile.calibratedRouting = [snapshot.calibrated] := by
  obtain ⟨records, -, parsed⟩ := accepts.records
  obtain ⟨_, same, -, described⟩ := parseUserProfile_eq_ok.mp parsed
  obtain ⟨routings, held, read⟩ := described.routing
  obtain rfl := Json.obj.inj same
  obtain ⟨_, _, listed, named⟩ := accepts.modelsProfile
  simp only [Json.lookup_fields_cons, String.reduceEq, if_true, if_false, Option.some_or,
    Option.some.injEq, Json.arr.injEq] at held
  rw [← held, listed] at read
  simp only [List.mapM_cons, List.mapM_nil, bind_eq_ok, pure_eq_ok] at read
  obtain ⟨calibrated, read, _, rfl, whole⟩ := read
  obtain ⟨rfl, rfl⟩ := List.cons.inj whole
  obtain ⟨_, inside, -, shown⟩ := parseCalibratedRouting_eq_ok.mp read
  obtain rfl := Json.obj.inj inside
  obtain ⟨value, found, -, -, -, -, -, -, routed⟩ := shown.profile
  have observedOn := shown.observedOn
  have source := shown.source
  have confidence := shown.confidence
  simp only [Json.lookup_fields_cons, Json.lookup_fields_nil, String.reduceEq, if_true, if_false,
    Option.or_none, Option.some.injEq, Json.str.injEq] at found observedOn source confidence
  have on := accepts.observedOn
  rw [observedOn, text_str] at on
  have routing := accepts.routing
  rw [found, Option.getD_some, routed] at routing
  have measured : calibrated.confidence = .measured := by
    revert confidence
    cases calibrated.confidence <;> simp [EconomicConfidence.text]
  rw [listed]
  obtain ⟨modelsProfile, routed', observedOn', source', confidence'⟩ := calibrated
  obtain rfl : modelsProfile = snapshot.modelsProfile := named
  obtain rfl : routed' = snapshot.routing := Except.ok.inj routing
  obtain rfl : observedOn' = snapshot.observedOn := Except.ok.inj on
  obtain rfl : confidence' = .measured := measured
  obtain rfl : "project-calibration" = source' := source
  rfl

/-- The envelope of a snapshot whose parts are valid. -/
theorem parse_envelope (valid : profile.Valid host)
    (routing : profile.calibratedRouting = [snapshot.calibrated])
    (plain : profile.capabilities = none)
    (read : records.mapM (parseEconomicRecord host) = .ok profile.economicRecords)
    (capacity : snapshot.subscriptionCapacityRanges = profile.subscriptionCapacityRanges) :
    ∃ fields, snapshot.toJson = .obj fields ∧
      parseUserProfile host (envelope fields records) = .ok profile := by
  refine ⟨_, rfl, parseUserProfile_eq_ok.mpr ⟨_, rfl, valid, ?_⟩⟩
  have among : snapshot.calibrated ∈ profile.calibratedRouting := by simp [routing]
  refine ⟨?_, by simp, by simp, ⟨_, by simp; rfl, ?_⟩, ⟨records, by simp, read⟩,
    ⟨_, by simp; rfl, ?_⟩, ⟨none, by simp [UserProfiles.optional], by simp [plain]⟩⟩
  · rintro ⟨key, value⟩ mem
    have listed := Json.mem_fields.mp mem
    simp only [List.mem_cons, List.not_mem_nil, or_false, Prod.mk.injEq] at listed ⊢
    tauto
  · have written := parseCalibratedRouting_again (valid.routing _ among)
    simp only [CalibratedRouting.toJson, ProjectCalibrationSnapshot.calibrated,
      EconomicConfidence.text] at written
    rw [routing, List.mapM_cons, written]
    rfl
  · rw [capacity]
    exact mapM_map_eq_ok fun range mem =>
      parseSubscriptionCapacityRange_again (valid.ranges range mem)

theorem shape_toJson {fields : List (String × Json)} (whole : snapshot.toJson = .obj fields) :
    shape fields = snapshotShape := by
  obtain rfl := Json.obj.inj whole
  show ",".intercalate (sortText ["version", "modelsProfile", "routing", "observedOn", "economics",
    "subscriptionCapacityRanges"]) = snapshotShape
  decide +kernel

/-- A snapshot whose parts are valid is parsed as it is. -/
theorem parse_toJson (valid : profile.Valid host)
    (routing : profile.calibratedRouting = [snapshot.calibrated])
    (plain : profile.capabilities = none)
    (enveloped : envelopeRecords host 0 snapshot.economics = .ok records)
    (read : records.mapM (parseEconomicRecord host) = .ok profile.economicRecords)
    (capacity : snapshot.subscriptionCapacityRanges = profile.subscriptionCapacityRanges)
    (objects : snapshot.economics.map spread = snapshot.economics) :
    parseProjectCalibrationSnapshot host snapshot.toJson = .ok snapshot := by
  obtain ⟨fields, whole, parsed⟩ := parse_envelope valid routing plain read capacity
  have among : snapshot.calibrated ∈ profile.calibratedRouting := by simp [routing]
  have sound := valid.routing _ among
  refine parseProjectCalibrationSnapshot_eq_ok.mpr
    ⟨fields, snapshot.economics, profile, whole, ?_⟩
  have shaped := shape_toJson whole
  have routed : parseProfile snapshot.routing.toJson = .ok snapshot.routing :=
    Profiles.parseProfile_again sound.profile
  obtain rfl := Json.obj.inj whole
  exact ⟨by simp, shaped, by simp, by simp, ⟨_, by simp; rfl⟩, ⟨records, enveloped, parsed⟩,
    by simp [text_str], sound.observedOn.2, by simpa using routed,
    ⟨_, [], routing, rfl⟩, objects.symm, capacity⟩

theorem parse_again (parsed : parseProjectCalibrationSnapshot host value = .ok snapshot) :
    parseProjectCalibrationSnapshot host snapshot.toJson = .ok snapshot := by
  obtain ⟨fields, economics, profile, rfl, accepts⟩ :=
    parseProjectCalibrationSnapshot_eq_ok.mp parsed
  obtain ⟨records, enveloped, read⟩ := accepts.records
  obtain ⟨_, same, valid, described⟩ := parseUserProfile_eq_ok.mp read
  obtain rfl := Json.obj.inj same
  obtain ⟨found, held, parsedRecords⟩ := described.records
  obtain ⟨capabilities, parsedCapabilities, kept⟩ := described.capabilities
  have plain : profile.capabilities = none := by
    have absent : capabilities = none := by simpa [UserProfiles.optional, eq_comm] using parsedCapabilities
    rw [kept, absent]
    rfl
  obtain rfl : records = found := by simpa using held
  have objects : snapshot.economics = economics := accepts.kept.trans (map_spread accepts)
  rw [← objects] at enveloped
  exact parse_toJson valid (accepts_calibrated accepts) plain enveloped parsedRecords
    accepts.capacity (by rw [objects, map_spread accepts])

end Parsing

/-! ## Closed snapshots -/

def entryKeys : List String :=
  ["provider", "model", "kind", "value", "unit", "observedOn", "source", "confidence"]

/-- A value has the fields of an entry, and no others. -/
def Exactly (item : Json) (entry : ProjectEconomicSnapshot) : Prop :=
  ∃ fields, item = .obj fields ∧ (∀ field ∈ fields, field.1 ∈ entryKeys) ∧ Shows fields entry ∧
    Json.lookup "observedOn" fields = some (.str entry.observedOn)

/-- What is parsed has exactly the declared entries, in bounds, and is parsed again as it is. -/
def SnapshotClosed (host : ProfileHost) (value : Json) : Prop :=
  ∀ snapshot, parseProjectCalibrationSnapshot host value = .ok snapshot →
    (∀ item ∈ snapshot.economics, ∃ entry, ProjectEconomicSnapshot.Valid host entry ∧
      Exactly item entry) ∧
    parseProjectCalibrationSnapshot host snapshot.toJson = .ok snapshot

/-- No economic entry has a field that is not declared, or a day that is no text. -/
def PlainEntries (value : Json) : Prop :=
  ∀ fields economics, value = .obj fields → Json.lookup "economics" fields = some (.arr economics) →
    ∀ item ∈ economics, ∀ inner, item = .obj inner → (∀ field ∈ inner, field.1 ∈ entryKeys) ∧
      ∃ day, Json.lookup "observedOn" inner = some (.str day)

/-- An accepted snapshot is closed just when its entries are plain. -/
theorem snapshotClosed_iff {host : ProfileHost} {value : Json} : SnapshotClosed host value ↔
    (parseProjectCalibrationSnapshot host value).isOk = true → PlainEntries value := by
  constructor
  · intro closed accepted
    cases parsed : parseProjectCalibrationSnapshot host value with
    | error failure =>
        rw [parsed] at accepted
        cases accepted
    | ok snapshot =>
        obtain ⟨fields, economics, profile, rfl, accepts⟩ :=
          parseProjectCalibrationSnapshot_eq_ok.mp parsed
        rintro _ _ ⟨⟩ held item mem inner rfl
        rw [accepts.entries] at held
        obtain rfl := Json.arr.inj (Option.some.inj held)
        have kept : Json.obj inner ∈ snapshot.economics := by
          rw [accepts.kept, map_spread accepts]
          exact mem
        obtain ⟨entry, -, _, ⟨⟩, known, -, day⟩ := (closed snapshot parsed).1 _ kept
        exact ⟨known, _, day⟩
  · intro plain snapshot parsed
    refine ⟨fun item mem => ?_, parse_again parsed⟩
    have accepted := plain (by rw [parsed]; rfl)
    obtain ⟨fields, economics, profile, rfl, accepts⟩ :=
      parseProjectCalibrationSnapshot_eq_ok.mp parsed
    rw [accepts.kept, map_spread accepts] at mem
    obtain ⟨inner, entry, rfl, valid, shows_, shown⟩ := accepted_entries accepts item mem
    obtain ⟨known, day, held⟩ := accepted fields economics rfl accepts.entries _ mem inner rfl
    rw [held, text_str] at shown
    obtain rfl := Except.ok.inj shown
    exact ⟨entry, valid, inner, rfl, known, shows_, held⟩

end AdCoder.ProjectCalibration
