import AdCoder.UserProfiles.SchemaLaws

/-!
# Valid user profiles

A profile is valid when its records are, its keys are distinct and each record of the
journal refers back to an earlier one of the same provider, model and kind. A valid
profile is validated again as it is.
-/

namespace AdCoder.UserProfiles

open Foundation

/-! ## Distinct keys -/

theorem foldlM_addNew {error : UserProfileError} {keys seen result : List String} :
    keys.foldlM (addNew error) seen = .ok result ↔
      (keys.Nodup ∧ ∀ key ∈ keys, key ∉ seen) ∧ result = seen ++ keys := by
  induction keys generalizing seen with
  | nil => simp [pure, Except.pure, eq_comm]
  | cons key rest ih =>
      simp only [List.foldlM_cons, bind_eq_ok, addNew, require_eq_ok, pure_eq_ok, ih,
        List.nodup_cons, List.forall_mem_cons]
      constructor
      · rintro ⟨_, ⟨-, fresh, rfl⟩, ⟨distinct, apart⟩, rfl⟩
        refine ⟨⟨⟨fun mem => apart key mem (by simp), distinct⟩, by simpa using fresh,
          fun other mem seen => apart other mem (List.mem_append_left _ seen)⟩, ?_⟩
        rw [List.append_assoc, List.singleton_append]
      · rintro ⟨⟨⟨new, distinct⟩, fresh, apart⟩, rfl⟩
        refine ⟨_, ⟨(), by simpa using fresh, rfl⟩, ⟨distinct, fun other mem => ?_⟩, ?_⟩
        · rw [List.mem_append, List.mem_singleton]
          exact not_or.mpr ⟨apart other mem, fun same => new (same ▸ mem)⟩
        · rw [List.append_assoc, List.singleton_append]

theorem addNew_nil_eq_ok {error : UserProfileError} {keys result : List String} :
    keys.foldlM (addNew error) [] = .ok result ↔ keys.Nodup ∧ result = keys := by
  rw [foldlM_addNew]
  simp

/-! ## The journal -/

/-- A record may follow the records before it. -/
structure Follows (before : List EconomicRecord) (record : EconomicRecord) : Prop where
  fresh : record.id ∉ before.map (·.id)
  value : 0 ≤ record.value
  previous : ∀ previousId ∈ record.previousId, ∃ other ∈ before, other.id = previousId ∧
    other.provider = record.provider ∧ other.model = record.model ∧ other.kind = record.kind

/-- Each record of a journal may follow those before it. -/
def JournalAfter : List EconomicRecord → List EconomicRecord → Prop
  | _, [] => True
  | before, record :: rest => Follows before record ∧ JournalAfter (before ++ [record]) rest

/-- A journal, from its start. -/
def Journal (records : List EconomicRecord) : Prop := JournalAfter [] records

section Journals

variable {before rest more : List EconomicRecord} {record : EconomicRecord}

/-- The record with an id, where no two have the same. -/
theorem find?_id (distinct : (before.map (·.id)).Nodup) (mem : record ∈ before) :
    before.find? (fun other => other.id == record.id) = some record := by
  cases found : before.find? (fun other => other.id == record.id) with
  | none => exact absurd (List.find?_eq_none.mp found record mem) (by simp)
  | some other =>
      have same : other.id = record.id := by simpa using List.find?_some found
      rw [List.inj_on_of_nodup_map distinct (List.mem_of_find?_eq_some found) mem same]

theorem checkRecord_eq_ok (distinct : (before.map (·.id)).Nodup) {result : List EconomicRecord} :
    checkRecord before record = .ok result ↔ Follows before record ∧ result = before ++ [record] := by
  simp only [checkRecord, bind_eq_ok, require_eq_ok, Bool.not_eq_true', List.contains_eq_mem,
    decide_eq_false_iff_not, Rat.not_lt]
  constructor
  · rintro ⟨_, fresh, _, value, h⟩
    cases held : record.previousId with
    | none =>
        rw [held] at h
        refine ⟨⟨fresh, value, fun _ mem => ?_⟩, (pure_eq_ok.mp h).symm⟩
        rw [held] at mem
        cases mem
    | some previousId =>
        rw [held] at h
        cases found : before.find? (fun other => other.id == previousId) with
        | none =>
            simp only [found] at h
            exact absurd h throw_ne_ok
        | some previous =>
            simp only [found, bind_eq_ok, require_eq_ok, pure_eq_ok, Bool.and_eq_true,
              beq_iff_eq] at h
            obtain ⟨_, ⟨⟨provider, model⟩, kind⟩, rfl⟩ := h
            refine ⟨⟨fresh, value, fun other mem => ?_⟩, rfl⟩
            rw [held] at mem
            cases mem
            exact ⟨previous, List.mem_of_find?_eq_some found, by simpa using List.find?_some found,
              provider, model, kind⟩
  · rintro ⟨follows, rfl⟩
    refine ⟨(), follows.fresh, (), follows.value, ?_⟩
    cases held : record.previousId with
    | none => rfl
    | some previousId =>
        obtain ⟨previous, mem, rfl, provider, model, kind⟩ := follows.previous previousId held
        simp only [find?_id distinct mem, provider, model, kind, beq_self_eq_true, Bool.and_self,
          require_true]
        rfl

theorem Follows.nodup (follows : Follows before record) (distinct : (before.map (·.id)).Nodup) :
    ((before ++ [record]).map (·.id)).Nodup := by
  rw [List.map_append, List.nodup_append]
  refine ⟨distinct, by simp, fun key mem other among => ?_⟩
  rw [show other = record.id by simpa using among]
  exact fun same => follows.fresh (same ▸ mem)

theorem JournalAfter.nodup (journal : JournalAfter before rest)
    (distinct : (before.map (·.id)).Nodup) : ((before ++ rest).map (·.id)).Nodup := by
  induction rest generalizing before with
  | nil => simpa using distinct
  | cons record rest ih => simpa using ih journal.2 (journal.1.nodup distinct)

theorem Journal.nodup (journal : Journal rest) : (rest.map (·.id)).Nodup :=
  JournalAfter.nodup journal List.nodup_nil

theorem foldlM_checkRecord (distinct : (before.map (·.id)).Nodup) {result : List EconomicRecord} :
    rest.foldlM checkRecord before = .ok result ↔
      JournalAfter before rest ∧ result = before ++ rest := by
  induction rest generalizing before with
  | nil => simp [pure, Except.pure, JournalAfter, eq_comm]
  | cons record rest ih =>
      simp only [List.foldlM_cons, bind_eq_ok, checkRecord_eq_ok distinct, JournalAfter]
      constructor
      · rintro ⟨_, ⟨follows, rfl⟩, later⟩
        obtain ⟨journal, rfl⟩ := (ih (follows.nodup distinct)).mp later
        exact ⟨⟨follows, journal⟩, by simp⟩
      · rintro ⟨⟨follows, journal⟩, rfl⟩
        exact ⟨_, ⟨follows, rfl⟩, (ih (follows.nodup distinct)).mpr ⟨journal, by simp⟩⟩

theorem journalAfter_append :
    JournalAfter before (rest ++ more) ↔
      JournalAfter before rest ∧ JournalAfter (before ++ rest) more := by
  induction rest generalizing before with
  | nil => simp [JournalAfter]
  | cons record rest ih => simp [JournalAfter, ih, and_assoc]

end Journals

/-! ## Profiles -/

/-- What validation promises of a profile. -/
structure UserProfile.Valid (host : ProfileHost) (profile : UserProfile) : Prop where
  routing : ∀ routing ∈ profile.calibratedRouting, routing.Valid host
  routingKeys : (profile.calibratedRouting.map (·.modelsProfile)).Nodup
  records : ∀ record ∈ profile.economicRecords, record.Valid host
  journal : Journal profile.economicRecords
  ranges : ∀ range ∈ profile.subscriptionCapacityRanges, range.Valid host
  rangeKeys : (profile.subscriptionCapacityRanges.map (·.key)).Nodup
  capabilities : ∀ capabilities ∈ profile.capabilities, capabilities.skills.isSome = true

/-- An object holds the fields of a profile. -/
structure UserProfile.Describes (host : ProfileHost) (fields : List (String × Json))
    (profile : UserProfile) : Prop where
  known : ∀ field ∈ fields, field.1 ∈ ["version", "inventories", "calibratedRouting",
    "economicRecords", "subscriptionCapacityRanges", "capabilities"]
  version : Json.lookup "version" fields = some (.num profileVersion)
  inventories : ∀ value ∈ Json.lookup "inventories" fields, value = .arr []
  routing : ∃ items, Json.lookup "calibratedRouting" fields = some (.arr items) ∧
    items.mapM (parseCalibratedRouting host) = .ok profile.calibratedRouting
  records : ∃ items, Json.lookup "economicRecords" fields = some (.arr items) ∧
    items.mapM (parseEconomicRecord host) = .ok profile.economicRecords
  ranges : ∃ items, Json.lookup "subscriptionCapacityRanges" fields = some (.arr items) ∧
    items.mapM (parseSubscriptionCapacityRange host) = .ok profile.subscriptionCapacityRanges
  capabilities : ∃ capabilities, optional parseCapabilities (Json.lookup "capabilities" fields) =
    .ok capabilities ∧ profile.capabilities = capabilities.filter (·.skills.isSome)

theorem isVersion_iff {value : Option Json} :
    isVersion value = true ↔ value = some (.num profileVersion) := by
  unfold isVersion
  split <;> simp_all

theorem noInventories_iff {value : Option Json} :
    noInventories value = true ↔ ∀ held ∈ value, held = .arr [] := by
  unfold noInventories
  split <;> simp_all

theorem checkRecord_nil_eq_ok {records result : List EconomicRecord} :
    records.foldlM checkRecord [] = .ok result ↔ Journal records ∧ result = records :=
  @foldlM_checkRecord [] records List.nodup_nil result

theorem parseUserProfile_eq_ok {host : ProfileHost} {value : Json} {profile : UserProfile} :
    parseUserProfile host value = .ok profile ↔
      ∃ fields, value = .obj fields ∧ profile.Valid host ∧ profile.Describes host fields := by
  simp only [parseUserProfile, bind_eq_ok, object_eq_ok, exactKeys_eq_ok, require_eq_ok, array_eq_ok,
    isVersion_iff, noInventories_iff, addNew_nil_eq_ok, checkRecord_nil_eq_ok, pure_eq_ok,
    Option.some.injEq]
  constructor
  · rintro ⟨fields, rfl, -, known, -, -, -, version, -, inventories, routings, hroutings, records,
      hrecords, ranges, hranges, capabilities, hcapabilities, routing, parsedRouting, -,
      ⟨routingKeys, -⟩, journal, parsedRecords, -, ⟨linked, -⟩, range, parsedRanges, -,
      ⟨rangeKeys, -⟩, rfl⟩
    refine ⟨fields, rfl, ⟨?_, routingKeys, ?_, linked, ?_, rangeKeys, ?_⟩,
      ⟨known, version, inventories, ⟨routings, hroutings, parsedRouting⟩,
        ⟨records, hrecords, parsedRecords⟩, ⟨ranges, hranges, parsedRanges⟩,
        ⟨capabilities, hcapabilities, rfl⟩⟩⟩
    · refine forall_mem_of_mapM (fun _ _ _ parsed => ?_) parsedRouting
      obtain ⟨-, -, valid, -⟩ := parseCalibratedRouting_eq_ok.mp parsed
      exact valid
    · refine forall_mem_of_mapM (fun _ _ _ parsed => ?_) parsedRecords
      obtain ⟨-, -, valid, -⟩ := parseEconomicRecord_eq_ok.mp parsed
      exact valid
    · refine forall_mem_of_mapM (fun _ _ _ parsed => ?_) parsedRanges
      obtain ⟨-, -, valid, -⟩ := parseSubscriptionCapacityRange_eq_ok.mp parsed
      exact valid
    · intro held mem
      exact (Option.filter_eq_some_iff.mp mem).2
  · rintro ⟨fields, rfl, valid, described⟩
    obtain ⟨routings, hroutings, parsedRouting⟩ := described.routing
    obtain ⟨records, hrecords, parsedRecords⟩ := described.records
    obtain ⟨ranges, hranges, parsedRanges⟩ := described.ranges
    obtain ⟨capabilities, hcapabilities, kept⟩ := described.capabilities
    refine ⟨fields, rfl, (), described.known, (), by rw [described.version]; rfl, (),
      described.version, (), described.inventories, routings, hroutings, records, hrecords, ranges,
      hranges, capabilities, hcapabilities, _, parsedRouting, _, ⟨valid.routingKeys, rfl⟩, _,
      parsedRecords, _, ⟨valid.journal, rfl⟩, _, parsedRanges, _, ⟨valid.rangeKeys, rfl⟩, ?_⟩
    rw [← kept]

theorem parseCapabilities_again {capabilities : UserProfileCapabilities} :
    parseCapabilities capabilities.toJson = .ok capabilities := by
  obtain ⟨_ | skills⟩ := capabilities
  · rfl
  · rfl

/-- A valid profile is validated again as it is. -/
theorem parseUserProfile_again {host : ProfileHost} {profile : UserProfile}
    (valid : profile.Valid host) : parseUserProfile host profile.toJson = .ok profile := by
  refine parseUserProfile_eq_ok.mpr ⟨_, rfl, valid, ?_⟩
  refine ⟨?_, by simp, by simp, ⟨_, by simp; rfl, ?_⟩, ⟨_, by simp; rfl, ?_⟩, ⟨_, by simp; rfl, ?_⟩,
    ⟨profile.capabilities, ?_, ?_⟩⟩
  · rintro ⟨key, value⟩ mem
    have listed := Json.mem_fields.mp mem
    simp only [List.mem_cons, List.not_mem_nil, or_false, Prod.mk.injEq] at listed ⊢
    tauto
  · exact mapM_map_eq_ok fun routing mem => parseCalibratedRouting_again (valid.routing routing mem)
  · exact mapM_map_eq_ok fun record mem => parseEconomicRecord_again (valid.records record mem)
  · exact mapM_map_eq_ok fun range mem =>
      parseSubscriptionCapacityRange_again (valid.ranges range mem)
  · cases held : profile.capabilities with
    | none => simp [optional]
    | some capabilities => simp [optional, parseCapabilities_again, Except.map]
  · cases held : profile.capabilities with
    | none => rfl
    | some capabilities => exact (if_pos (valid.capabilities capabilities held)).symm

end AdCoder.UserProfiles
