import AdCoder.UserProfiles.ImportLaws

/-!
# The journal over the operations of the store

Whatever an operation of the store does, the journal that is read before it is a prefix of
the journal that is read after it.
-/

namespace AdCoder.UserProfiles

open Foundation

/-! ## What is written -/

section Written

variable {host : ProfileHost} {file : ProfileFile} {current next profile : UserProfile}
  {fault : StorageFault} {value : Json}

theorem readable_userProfile (reads : ReadsAll host profile.numbers) :
    JsonText.Readable host.format profile.toJson := by
  have version : JsonText.Reads host.format profileVersion :=
    @JsonText.reads_nat _ host.decimal 1 (by decide)
  refine JsonText.readable_object (by simp only [List.map_cons, List.map_nil]; decide) ?_
  intro property mem value held
  simp only [List.mem_cons, List.not_mem_nil, or_false] at mem
  rcases mem with rfl | rfl | rfl | rfl | rfl
  · cases held
    exact JsonText.readable_num.mpr version
  · cases held
    rw [JsonText.readable_arr]
    intro item mem
    obtain ⟨routing, among, rfl⟩ := List.mem_map.mp mem
    exact readable_routing fun q inside => reads q (List.mem_append_left _
      (List.mem_append_left _ (List.mem_flatMap.mpr ⟨routing, among, inside⟩)))
  · cases held
    rw [JsonText.readable_arr]
    intro item mem
    obtain ⟨record, among, rfl⟩ := List.mem_map.mp mem
    exact readable_record (reads _ (List.mem_append_left _ (List.mem_append_right _
      (List.mem_map_of_mem among))))
  · cases held
    rw [JsonText.readable_arr]
    intro item mem
    obtain ⟨range, among, rfl⟩ := List.mem_map.mp mem
    exact readable_range fun q inside => reads q (List.mem_append_right _
      (List.mem_flatMap.mpr ⟨range, among, inside⟩))
  · obtain ⟨capabilities, -, rfl⟩ := Option.map_eq_some_iff.mp held
    refine JsonText.readable_object (by simp) ?_
    cases capabilities.skills <;> simp [JsonText.Readable]

/-- What the file holds, if it holds a value, is read back from its text. -/
def SoundFile (host : ProfileHost) (file : ProfileFile) : Prop :=
  ∀ value, file = some (some value) → JsonText.Readable host.format value

theorem sound_emptyProfile : Sound host emptyProfile := by
  refine ⟨⟨?_, List.nodup_nil, ?_, trivial, ?_, List.nodup_nil, ?_⟩, ?_⟩
  all_goals intro _ mem; cases mem

/-- A read that succeeds returns what the file holds. -/
theorem read_eq_ok (h : read host fault file = .ok current) : read host .none file = .ok current := by
  unfold read at h ⊢
  split_ifs at h with failed
  rwa [if_neg (by simp)]

theorem sound_read (sound : SoundFile host file) (h : read host .none file = .ok current) :
    Sound host current := by
  unfold read at h
  rw [if_neg (by simp)] at h
  cases file with
  | none =>
      obtain rfl := Except.ok.inj h
      exact sound_emptyProfile
  | some text =>
      cases text with
      | none => cases h
      | some value => exact sound_of_parse (sound value rfl) h

theorem encodeUserProfile_toJson (valid : profile.Valid host) :
    encodeUserProfile host profile.toJson = .ok profile.toJson := by
  rw [encodeUserProfile, parseUserProfile_again valid]
  rfl

/-- The records of a validated profile are those that were written. -/
theorem records_of_parse (each : ∀ record ∈ profile.economicRecords, record.Valid host)
    (parsed : parseUserProfile host profile.toJson = .ok next) :
    next.economicRecords = profile.economicRecords := by
  obtain ⟨fields, whole, -, described⟩ := parseUserProfile_eq_ok.mp parsed
  obtain ⟨items, found, read⟩ := described.records
  have written : Json.lookup "economicRecords" fields =
      some (.arr (profile.economicRecords.map (·.toJson))) := by
    rw [← Json.obj.inj whole]
    simp
  rw [written] at found
  obtain rfl := Json.arr.inj (Option.some.inj found)
  rw [mapM_map_eq_ok fun record mem => parseEconomicRecord_again (each record mem)] at read
  exact (Except.ok.inj read).symm

end Written

/-! ## One operation -/

section Steps

variable {host : ProfileHost} {file : ProfileFile} {current : UserProfile} {fault : StorageFault}

/-- The file is as it was, or holds a profile whose journal extends the current one. -/
def Extends (host : ProfileHost) (file : ProfileFile) (current : UserProfile)
    (after : ProfileFile) : Prop :=
  after = file ∨ ∃ next, Sound host next ∧ current.economicRecords <+: next.economicRecords ∧
    after = some (some next.toJson)

theorem extends_publish {next : UserProfile} (sound : Sound host next)
    (longer : current.economicRecords <+: next.economicRecords) :
    Extends host file current (publish host fault file next).1 := by
  simp only [publish, encodeUserProfile_toJson sound.valid]
  cases fault with
  | publishing => exact .inl rfl
  | _ => exact .inr ⟨next, sound, longer, rfl⟩

theorem extends_publishChanged {next : UserProfile} (sound : Sound host next)
    (longer : current.economicRecords <+: next.economicRecords) :
    Extends host file current (publishChanged host fault file current next).1 := by
  unfold publishChanged
  split
  · split_ifs
    · exact .inl rfl
    · exact extends_publish sound longer
  · exact .inl rfl
  · exact .inl rfl

theorem isPrefix_of_zip {α : Type} {left right : List α} (short : left.length ≤ right.length)
    (alike : ∀ pair ∈ left.zip right, pair.1 = pair.2) : left <+: right := by
  induction left generalizing right with
  | nil => exact List.nil_prefix
  | cons x rest ih =>
      cases right with
      | nil => simp at short
      | cons y more =>
          simp only [List.zip_cons_cons, List.forall_mem_cons] at alike
          rw [show x = y from alike.1]
          exact (List.prefix_cons_inj y).mpr (ih (by simpa using short) alike.2)

theorem assertJournalPrefix_eq_ok {next : UserProfile} (sound : Sound host current)
    (sound' : Sound host next) {u : Unit} (h : assertJournalPrefix host current next = .ok u) :
    current.economicRecords <+: next.economicRecords := by
  rw [assertJournalPrefix, require_eq_ok, Bool.and_eq_true, decide_eq_true_iff,
    List.all_eq_true] at h
  refine isPrefix_of_zip h.1 ?_
  rintro ⟨record, other⟩ mem
  have among := List.of_mem_zip mem
  have texts : same host record.toJson other.toJson = true := h.2 (record, other) mem
  exact record_toJson_inj (sound.valid.records record among.1) (sound'.valid.records other among.2)
    ((same_iff (sound.record among.1) (sound'.record among.2)).mp texts)

theorem extends_write (known : SoundFile host file) (held : read host .none file = .ok current)
    (value : ProfileData host) : Extends host file current (write host fault file value).1 := by
  cases checked : checkWrite host fault file value with
  | error error => exact .inl (by rw [write, checked])
  | ok pair =>
      obtain ⟨found, profile⟩ := pair
      rw [write, checked]
      simp only [checkWrite, bind_eq_ok, pure_eq_ok, Prod.mk.injEq] at checked
      obtain ⟨_, parsed, found, reading, _, ordered, rfl, rfl⟩ := checked
      obtain rfl : current = found := by simpa [held] using read_eq_ok reading
      have sound := sound_of_parse value.property parsed
      exact extends_publishChanged sound
        (assertJournalPrefix_eq_ok (sound_read known held) sound ordered)

theorem extends_append (known : SoundFile host file) (held : read host .none file = .ok current)
    (value : ProfileData host) :
    Extends host file current (appendEconomicRecord host fault file value).1 := by
  cases checked : checkAppend host fault file value with
  | error error => exact .inl (by rw [appendEconomicRecord, checked])
  | ok next =>
      rw [appendEconomicRecord, checked]
      simp only [checkAppend, bind_eq_ok] at checked
      obtain ⟨record, parsed, found, reading, _, -, again⟩ := checked
      obtain rfl : current = found := by simpa [held] using read_eq_ok reading
      have sound := sound_read known held
      obtain ⟨fields, whole, valid, described⟩ := parseEconomicRecord_eq_ok.mp parsed
      have reads : JsonText.Reads host.format (.finite record.value) :=
        reads_lookup (whole ▸ value.property) described.value
      have longer := records_of_parse (fun other mem => by
        obtain mem | mem := List.mem_append.mp mem
        · exact sound.valid.records other mem
        · exact List.mem_singleton.mp mem ▸ valid) again
      refine extends_publish (sound_of_parse (readable_userProfile ?_) again) ?_
      · intro q mem
        have cases_ : q ∈ current.numbers ∨ q = record.value := by
          simp only [UserProfile.numbers, List.map_append, List.map_cons, List.map_nil,
            List.mem_append, List.mem_singleton] at mem ⊢
          tauto
        obtain mem | rfl := cases_
        · exact sound.numbers q mem
        · exact reads
      · rw [longer]
        exact List.prefix_append _ _

theorem readsAll_imported {incoming : UserProfile} (mode : ImportMode) (sound : Sound host current)
    (sound' : Sound host incoming) : ReadsAll host (importedProfile current incoming mode).numbers := by
  have reads := sound.numbers
  have reads' := sound'.numbers
  simp only [ReadsAll, UserProfile.numbers, List.forall_mem_append, List.forall_mem_flatMap,
    List.forall_mem_map] at reads reads' ⊢
  obtain ⟨⟨routing, records⟩, ranges⟩ := reads
  obtain ⟨⟨routing', records'⟩, ranges'⟩ := reads'
  cases mode with
  | merge =>
      simp only [importedProfile, List.forall_mem_append]
      exact ⟨⟨⟨routing, fun other mem => routing' other (Collection.mem_added.mp mem).1⟩,
        records, fun other mem => records' other (Collection.mem_added.mp mem).1⟩,
        ranges, fun other mem => ranges' other (Collection.mem_added.mp mem).1⟩
  | replace =>
      simp only [importedProfile, List.forall_mem_append]
      exact ⟨⟨routing', records, fun other mem => records' other (Collection.mem_added.mp mem).1⟩,
        ranges'⟩

theorem requireImportResult_eq_ok {incoming result : UserProfile} {mode : ImportMode} :
    requireImportResult (planImport host current incoming mode) = .ok result ↔
      (planImport host current incoming mode).conflicts = [] ∧
        result = importedProfile current incoming mode := by
  simp only [requireImportResult, planImport]
  cases plannedLabels host current incoming mode .conflicting with
  | nil => simp [eq_comm]
  | cons label rest => simp

theorem extends_import (known : SoundFile host file) (held : read host .none file = .ok current)
    (value : ProfileData host) (mode : ImportMode) :
    Extends host file current (importProfile host fault file value mode).1 := by
  cases checked : checkImport host fault file value mode with
  | error error => exact .inl (by rw [importProfile, checked])
  | ok pair =>
      obtain ⟨found, validated⟩ := pair
      rw [importProfile, checked]
      simp only [checkImport, bind_eq_ok, pure_eq_ok, Prod.mk.injEq, previewUserProfileImport] at checked
      obtain ⟨found, reading, preview, ⟨_, again, incoming, parsed, rfl⟩, result, made, _, back, rfl, rfl⟩ :=
        checked
      obtain rfl : current = found := by simpa [held] using read_eq_ok reading
      have sound := sound_read known held
      rw [parseUserProfile_again sound.valid] at again
      obtain rfl := Except.ok.inj again
      obtain ⟨-, rfl⟩ := requireImportResult_eq_ok.mp made
      have sound' := sound_of_parse value.property parsed
      have records := records_of_parse (fun record mem => by
        obtain mem | mem := List.mem_append.mp mem
        · exact sound.valid.records record mem
        · exact sound'.valid.records record (Collection.mem_added.mp mem).1) back
      refine extends_publishChanged
        (sound_of_parse (readable_userProfile (readsAll_imported mode sound sound')) back) ?_
      rw [records]
      exact List.prefix_append _ _

theorem extends_perform (known : SoundFile host file) (held : read host .none file = .ok current)
    (call : StoreCall host) : Extends host file current (perform host file call) := by
  obtain ⟨operation, fault⟩ := call
  cases operation with
  | write value => exact extends_write known held value
  | append value => exact extends_append known held value
  | «import» value mode => exact extends_import known held value mode

theorem read_written {next : UserProfile} (valid : next.Valid host) :
    read host .none (some (some next.toJson)) = .ok next := by
  unfold read
  rw [if_neg (by simp)]
  exact parseUserProfile_again valid

/-- One operation keeps the journal as a prefix, and a file that can be read. -/
theorem journal_perform (known : SoundFile host file) (held : read host .none file = .ok current)
    (call : StoreCall host) : SoundFile host (perform host file call) ∧
      ∃ next, read host .none (perform host file call) = .ok next ∧
        current.economicRecords <+: next.economicRecords := by
  obtain same_ | ⟨next, sound, longer, replaced⟩ := extends_perform known held call
  · rw [same_]
    exact ⟨known, current, held, List.prefix_refl _⟩
  · rw [replaced]
    refine ⟨?_, next, read_written sound.valid, longer⟩
    rintro _ ⟨⟩
    exact readable_userProfile sound.numbers

/-- Any operations keep the journal as a prefix. -/
theorem journal_run (known : SoundFile host file) (held : read host .none file = .ok current)
    (calls : List (StoreCall host)) : ∃ later, read host .none (run host file calls) = .ok later ∧
      current.economicRecords <+: later.economicRecords := by
  induction calls generalizing file current with
  | nil => exact ⟨current, held, List.prefix_refl _⟩
  | cons call rest ih =>
      obtain ⟨known', next, held', longer⟩ := journal_perform known held call
      obtain ⟨later, reading, longer'⟩ := ih known' held'
      exact ⟨later, reading, longer.trans longer'⟩

end Steps

/-! ## Conservative imports -/

/-- The parts of a profile are those of the local one, and then what is new in the other. -/
structure Merged (current incoming result : UserProfile) : Prop where
  routing : result.calibratedRouting = current.calibratedRouting ++
    incoming.calibratedRouting.filter fun routing =>
      routing.modelsProfile ∉ current.calibratedRouting.map (·.modelsProfile)
  records : result.economicRecords = current.economicRecords ++
    incoming.economicRecords.filter fun record =>
      record.id ∉ current.economicRecords.map (·.id)
  ranges : result.subscriptionCapacityRanges = current.subscriptionCapacityRanges ++
    incoming.subscriptionCapacityRanges.filter fun range =>
      (range.provider, range.unit) ∉
        current.subscriptionCapacityRanges.map fun range => (range.provider, range.unit)
  capabilities : result.capabilities = current.capabilities

/-- Importing the value again finds nothing to do, and does nothing to the file. -/
structure Settled (host : ProfileHost) (incomingValue : Json) (result : UserProfile) : Prop where
  preview : ∃ preview, previewUserProfileImport host result.toJson incomingValue .merge =
    .ok preview ∧ preview.creates = [] ∧ preview.updates = [] ∧ preview.conflicts = [] ∧
      requireImportResult preview = .ok result
  file : importProfile host .none (some (some result.toJson)) incomingValue .merge =
    (some (some result.toJson), .ok result)

/-- What the lists of a plan name: in a replacement, routing and capacity count as a whole. -/
def planItems (incoming : UserProfile) (mode : ImportMode) : List String :=
  (match mode with
    | .merge => incoming.calibratedRouting.map routingCollection.label ++
        incoming.subscriptionCapacityRanges.map capacityCollection.label
    | .replace => ["calibratedRouting", "subscriptionCapacityRanges"]) ++
    incoming.economicRecords.map recordCollection.label

/-- An import conserves the local profile. -/
structure Conserves (host : ProfileHost) (localValue incomingValue : Json)
    (current incoming : UserProfile) : Prop where
  merges : ∀ preview, previewUserProfileImport host localValue incomingValue .merge = .ok preview →
    preview.conflicts = [] → ∃ result, requireImportResult preview = .ok result ∧
      parseUserProfile host result.toJson = .ok result ∧ Merged current incoming result ∧
      Settled host incomingValue result
  lists : ∀ mode preview, previewUserProfileImport host localValue incomingValue mode = .ok preview →
    (preview.creates ++ preview.updates ++ preview.unchanged ++ preview.conflicts).Perm
      (planItems incoming mode)
  journal : ∀ mode preview result,
    previewUserProfileImport host localValue incomingValue mode = .ok preview →
    requireImportResult preview = .ok result →
    current.economicRecords <+: result.economicRecords
  runs : ∀ calls, ∃ later, read host .none (run host (some (some localValue)) calls) = .ok later ∧
    current.economicRecords <+: later.economicRecords

/-- Every import of one value into a profile conserves it, where both are valid. -/
def ImportConserves (host : ProfileHost) (localValue incomingValue : ProfileData host) : Prop :=
  ∀ current incoming, parseUserProfile host localValue.val = .ok current →
    parseUserProfile host incomingValue.val = .ok incoming →
    Conserves host localValue.val incomingValue.val current incoming

section Conserving

variable {host : ProfileHost} {current incoming : UserProfile}

theorem previewUserProfileImport_eq_ok {localValue incomingValue : Json} {mode : ImportMode}
    {preview : UserProfileImportPreview} (parsed : parseUserProfile host localValue = .ok current)
    (parsed' : parseUserProfile host incomingValue = .ok incoming) :
    previewUserProfileImport host localValue incomingValue mode = .ok preview ↔
      preview = planImport host current incoming mode := by
  simp only [previewUserProfileImport, parsed, parsed', bind_eq_ok, Except.ok.injEq, pure_eq_ok,
    exists_eq_left']
  exact eq_comm

theorem previewUserProfileImport_eq {localValue incomingValue : Json}
    (parsed : parseUserProfile host localValue = .ok current)
    (parsed' : parseUserProfile host incomingValue = .ok incoming) (mode : ImportMode) :
    previewUserProfileImport host localValue incomingValue mode =
      .ok (planImport host current incoming mode) :=
  (previewUserProfileImport_eq_ok parsed parsed').mpr rfl

theorem added_ranges (agree : capacityCollection.Agree current.subscriptionCapacityRanges
    incoming.subscriptionCapacityRanges) :
    capacityCollection.added current.subscriptionCapacityRanges
      incoming.subscriptionCapacityRanges =
    incoming.subscriptionCapacityRanges.filter fun range =>
      (range.provider, range.unit) ∉
        current.subscriptionCapacityRanges.map fun range => (range.provider, range.unit) := by
  rw [Collection.added_eq_filter]
  refine List.filter_congr fun range mem => ?_
  rw [decide_eq_decide, not_iff_not]
  constructor
  · intro known
    obtain ⟨held, among, alike⟩ := List.mem_map.mp known
    exact List.mem_map.mpr ⟨held, among, by rw [agree held among range mem alike]⟩
  · intro known
    obtain ⟨held, among, alike⟩ := List.mem_map.mp known
    obtain ⟨provider, unit⟩ := Prod.mk.inj alike
    exact List.mem_map.mpr ⟨held, among, congrArg₂ (fun p u => p ++ "\u0000" ++ u) provider unit⟩

/-- A merge without conflicts has all the parts of the local profile but its capabilities. -/
theorem merged_iff (agree : Agrees current incoming) :
    Merged current incoming (importedProfile current incoming .merge) ↔
      current.capabilities = none := by
  constructor
  · intro merged
    exact merged.capabilities.symm
  · intro absent
    refine ⟨?_, ?_, ?_, absent.symm⟩
    · simp only [importedProfile, Collection.added_eq_filter]
      rfl
    · simp only [importedProfile, Collection.added_eq_filter]
      rfl
    · simp only [importedProfile, added_ranges agree.ranges]

theorem settled_merged {incomingValue : Json} (valid : current.Valid host)
    (parsed' : parseUserProfile host incomingValue = .ok incoming) (valid' : incoming.Valid host)
    (agree : Agrees current incoming) :
    Settled host incomingValue (importedProfile current incoming .merge) := by
  have sound := valid_merged valid valid' agree
  obtain ⟨created, updated, conflicting, result⟩ := planImport_again valid valid' agree
  have again := previewUserProfileImport_eq (parseUserProfile_again sound) parsed' .merge
  have required : requireImportResult
      (planImport host (importedProfile current incoming .merge) incoming .merge) =
        .ok (importedProfile current incoming .merge) := by
    rw [requireImportResult, conflicting, result]
  refine ⟨⟨_, again, created, updated, conflicting, required⟩, ?_⟩
  have checked : checkImport host .none (some (some (importedProfile current incoming .merge).toJson))
      incomingValue .merge =
        .ok (importedProfile current incoming .merge, importedProfile current incoming .merge) := by
    simp only [checkImport, bind_eq_ok, pure_eq_ok]
    exact ⟨_, read_written sound, _, again, _, required, _, parseUserProfile_again sound, rfl⟩
  simp only [importProfile, checked, publishChanged, encodeUserProfile_toJson sound, same,
    beq_self_eq_true, if_true]
  rfl

/-- A part that is replaced as a whole is listed once. -/
theorem parts_perm (parts : List (String × Bool)) :
    ((parts.filter (!·.2)).map (·.1) ++ (parts.filter (·.2)).map (·.1)).Perm (parts.map (·.1)) := by
  rw [← List.map_append]
  refine List.Perm.map _ ?_
  simpa using List.filter_append_perm (fun part : String × Bool => !part.2) parts

theorem lists_perm (mode : ImportMode) :
    let preview := planImport host current incoming mode
    (preview.creates ++ preview.updates ++ preview.unchanged ++ preview.conflicts).Perm
      (planItems incoming mode) := by
  rw [List.perm_iff_count]
  intro label
  have routing := (@Collection.labels_perm _ routingCollection host current.calibratedRouting
    incoming.calibratedRouting).count_eq label
  have ranges := (@Collection.labels_perm _ capacityCollection host
    current.subscriptionCapacityRanges incoming.subscriptionCapacityRanges).count_eq label
  have records := (@Collection.labels_perm _ recordCollection host current.economicRecords
    incoming.economicRecords).count_eq label
  have parts := (parts_perm (replacedParts host current incoming mode)).count_eq label
  simp only [planImport, plannedLabels, planItems, List.count_append] at *
  cases mode with
  | merge =>
      simp only [replacedParts, List.count_append, List.filter_nil, List.map_nil,
        List.count_nil] at *
      omega
  | replace =>
      have named : (replacedParts host current incoming .replace).map (·.1) =
          ["calibratedRouting", "subscriptionCapacityRanges"] := rfl
      rw [named] at parts
      simp only [List.count_nil] at *
      omega

end Conserving

/-- An import conserves the local profile unless it has capabilities and nothing conflicts. -/
theorem importConserves_iff (host : ProfileHost) (localValue incomingValue : ProfileData host) :
    ImportConserves host localValue incomingValue ↔
      ∀ current incoming, parseUserProfile host localValue.val = .ok current →
        parseUserProfile host incomingValue.val = .ok incoming → Agrees current incoming →
        current.capabilities = none := by
  constructor
  · intro conserves current incoming parsed parsed' agree
    have sound := sound_of_parse localValue.property parsed
    have sound' := sound_of_parse incomingValue.property parsed'
    have preview := previewUserProfileImport_eq parsed parsed' .merge
    have quiet := (conflicts_eq_nil_iff sound sound').mpr agree
    obtain ⟨result, required, -, merged, -⟩ :=
      (conserves current incoming parsed parsed').merges _ preview quiet
    obtain rfl := (requireImportResult_eq_ok.mp required).2
    exact (merged_iff agree).mp merged
  · intro absent current incoming parsed parsed'
    have sound := sound_of_parse localValue.property parsed
    have sound' := sound_of_parse incomingValue.property parsed'
    refine ⟨?_, ?_, ?_, ?_⟩
    · intro preview planned quiet
      obtain rfl := (previewUserProfileImport_eq_ok parsed parsed').mp planned
      have agree := (conflicts_eq_nil_iff sound sound').mp quiet
      exact ⟨_, requireImportResult_eq_ok.mpr ⟨quiet, rfl⟩,
        parseUserProfile_again (valid_merged sound.valid sound'.valid agree),
        (merged_iff agree).mpr (absent current incoming parsed parsed' agree),
        settled_merged sound.valid parsed' sound'.valid agree⟩
    · intro mode preview planned
      obtain rfl := (previewUserProfileImport_eq_ok parsed parsed').mp planned
      exact lists_perm mode
    · intro mode preview result planned required
      obtain rfl := (previewUserProfileImport_eq_ok parsed parsed').mp planned
      obtain ⟨-, rfl⟩ := requireImportResult_eq_ok.mp required
      exact List.prefix_append _ _
    · refine fun calls => journal_run ?_ ?_ calls
      · rintro _ ⟨⟩
        exact localValue.property
      · unfold read
        rw [if_neg (by simp)]
        exact parsed

/-! ### Lost capabilities -/

def plainHost : ProfileHost where
  parseUrl _ := none
  format := decimalFormat
  decimal := decimalFormat_decimal

/-- A profile that turns the skills off, and nothing else. -/
def skillsOff : UserProfile := { emptyProfile with capabilities := some ⟨some false⟩ }

theorem valid_skillsOff : skillsOff.Valid plainHost := by
  obtain ⟨routing, routingKeys, records, journal, ranges, rangeKeys, -⟩ :=
    (@sound_emptyProfile plainHost).valid
  refine ⟨routing, routingKeys, records, journal, ranges, rangeKeys, ?_⟩
  rintro _ ⟨⟩
  rfl

/-- A merge with an empty profile turns them on again. -/
theorem importConserves_refuted : ¬ ImportConserves plainHost
    ⟨skillsOff.toJson, readable_userProfile sound_emptyProfile.numbers⟩
    ⟨emptyProfile.toJson, readable_userProfile sound_emptyProfile.numbers⟩ := by
  intro conserves
  have parsed := parseUserProfile_again valid_skillsOff
  have parsed' := parseUserProfile_again (@sound_emptyProfile plainHost).valid
  have preview := previewUserProfileImport_eq parsed parsed' .merge
  obtain ⟨result, required, -, merged, -⟩ :=
    (conserves skillsOff emptyProfile parsed parsed').merges _ preview rfl
  obtain rfl := (requireImportResult_eq_ok.mp required).2
  exact Option.some_ne_none _ merged.capabilities.symm

end AdCoder.UserProfiles
