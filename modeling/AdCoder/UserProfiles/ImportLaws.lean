import AdCoder.UserProfiles.Numbers
import AdCoder.UserProfiles.Store

/-!
# Imports are conservative

A merge without conflicts keeps every entry of the local profile and appends the entries
that are new; the same import then finds nothing left to do. The journal of a profile is
a prefix of the journal after any operations of the store. The one part that an import does
not carry over is the capabilities.
-/

namespace AdCoder.UserProfiles

open Foundation

/-! ## Collections -/

namespace Collection

variable {α : Type} {c : Collection α} {host : ProfileHost} {entries incoming : List α}
  {entry current : α} {key : String}

/-- Entries with the same key are the same. -/
def Agree (c : Collection α) (entries incoming : List α) : Prop :=
  ∀ current ∈ entries, ∀ entry ∈ incoming, c.key current = c.key entry → current = entry

/-- The texts of the entries tell them apart. -/
def Exact (c : Collection α) (host : ProfileHost) (entries incoming : List α) : Prop :=
  ∀ current ∈ entries, ∀ entry ∈ incoming,
    same host (c.write current) (c.write entry) = true ↔ current = entry

theorem current?_eq_none : c.current? entries key = none ↔ key ∉ entries.map c.key := by
  simp [current?]

theorem current?_eq_some (distinct : (entries.map c.key).Nodup) :
    c.current? entries key = some entry ↔ entry ∈ entries ∧ c.key entry = key := by
  constructor
  · intro found
    exact ⟨by simpa using List.mem_of_find?_eq_some found, by simpa using List.find?_some found⟩
  · rintro ⟨mem, rfl⟩
    cases found : c.current? entries (c.key entry) with
    | none => exact absurd (List.mem_map_of_mem mem) (current?_eq_none.mp found)
    | some other =>
        have held : other ∈ entries := by simpa using List.mem_of_find?_eq_some found
        have alike : c.key other = c.key entry := by simpa using List.find?_some found
        rw [List.inj_on_of_nodup_map distinct held mem alike]

theorem added_eq_filter :
    c.added entries incoming = incoming.filter fun entry => c.key entry ∉ entries.map c.key := by
  refine List.filter_congr fun entry _ => ?_
  rw [Bool.eq_iff_iff, Option.isNone_iff_eq_none, current?_eq_none]
  simp

theorem mem_added : entry ∈ c.added entries incoming ↔
    entry ∈ incoming ∧ c.key entry ∉ entries.map c.key := by
  rw [added_eq_filter, List.mem_filter, decide_eq_true_iff]

theorem added_append {before : List α} : c.added entries (before ++ incoming) =
    c.added entries before ++ c.added entries incoming := List.filter_append _ _

theorem added_cons_of_new (new : c.key entry ∉ entries.map c.key) :
    c.added entries (entry :: incoming) = entry :: c.added entries incoming := by
  rw [added_eq_filter, added_eq_filter, List.filter_cons_of_pos (by simpa using new)]

theorem added_cons_of_held (held : c.key entry ∈ entries.map c.key) :
    c.added entries (entry :: incoming) = c.added entries incoming := by
  rw [added_eq_filter, added_eq_filter, List.filter_cons_of_neg (by simpa using held)]

theorem verdict_conflicting_iff (distinct : (entries.map c.key).Nodup)
    (exact_ : c.Exact host entries incoming) (mem : entry ∈ incoming) :
    c.verdict host entries entry = .conflicting ↔
      ∃ current ∈ entries, c.key current = c.key entry ∧ current ≠ entry := by
  rw [verdict]
  cases found : c.current? entries (c.key entry) with
  | none =>
      have absent := current?_eq_none.mp found
      simp only [reduceCtorEq, false_iff, not_exists, not_and]
      exact fun current held alike => absurd (alike ▸ List.mem_map_of_mem held) absent
  | some current =>
      obtain ⟨held, alike⟩ := (current?_eq_some distinct).mp found
      have unique : ∀ other ∈ entries, c.key other = c.key entry → other = current :=
        fun other among alike' =>
          List.inj_on_of_nodup_map distinct among held (alike'.trans alike.symm)
      by_cases equal : same host (c.write current) (c.write entry) = true
      · have whole := (exact_ current held entry mem).mp equal
        simp only [equal, if_true, reduceCtorEq, false_iff, not_exists, not_and, not_not]
        exact fun other among alike' => (unique other among alike').trans whole
      · simp only [equal, Bool.false_eq_true, if_false, true_iff]
        exact ⟨current, held, alike,
          fun whole => equal ((exact_ current held entry mem).mpr whole)⟩

/-- There are no conflicts just when entries with the same key are the same. -/
theorem labels_conflicting_eq_nil (distinct : (entries.map c.key).Nodup)
    (exact_ : c.Exact host entries incoming) :
    c.labels host entries incoming .conflicting = [] ↔ c.Agree entries incoming := by
  simp only [labels, List.map_eq_nil_iff, List.filter_eq_nil_iff, beq_iff_eq]
  constructor
  · intro none_ current held entry mem alike
    by_contra differ
    exact none_ entry mem ((verdict_conflicting_iff distinct exact_ mem).mpr
      ⟨current, held, alike, differ⟩)
  · intro agree entry mem conflict
    obtain ⟨current, held, alike, differ⟩ := (verdict_conflicting_iff distinct exact_ mem).mp conflict
    exact differ (agree current held entry mem alike)

/-- Each incoming entry has one verdict. -/
theorem labels_perm : (c.labels host entries incoming .created ++
    c.labels host entries incoming .unchanged ++
    c.labels host entries incoming .conflicting).Perm (incoming.map c.label) := by
  unfold labels
  induction incoming with
  | nil => exact List.Perm.refl []
  | cons entry rest ih =>
      cases found : c.verdict host entries entry with
      | created => simpa [List.filter_cons, found] using ih
      | unchanged =>
          simp only [List.filter_cons, found, List.map_cons, List.append_assoc] at ih ⊢
          exact List.perm_middle.trans (ih.cons _)
      | conflicting =>
          simp only [List.filter_cons, found, List.map_cons] at ih ⊢
          exact List.perm_middle.trans (ih.cons _)

/-! ### After a merge -/

theorem nodup_merged (distinct : (entries.map c.key).Nodup)
    (distinct' : (incoming.map c.key).Nodup) :
    ((entries ++ c.added entries incoming).map c.key).Nodup := by
  rw [List.map_append, List.nodup_append]
  refine ⟨distinct, distinct'.sublist (List.filter_sublist.map c.key), fun key mem other among => ?_⟩
  obtain ⟨entry, new, rfl⟩ := List.mem_map.mp among
  exact fun alike => (mem_added.mp new).2 (alike ▸ mem)

theorem mem_merged (agree : c.Agree entries incoming) (mem : entry ∈ incoming) :
    entry ∈ entries ++ c.added entries incoming := by
  by_cases held : c.key entry ∈ entries.map c.key
  · obtain ⟨current, among, alike⟩ := List.mem_map.mp held
    rw [← agree current among entry mem alike]
    exact List.mem_append_left _ among
  · exact List.mem_append_right _ (mem_added.mpr ⟨mem, held⟩)

theorem added_merged (agree : c.Agree entries incoming) :
    c.added (entries ++ c.added entries incoming) incoming = [] := by
  rw [added_eq_filter, List.filter_eq_nil_iff]
  intro entry mem
  rw [decide_eq_true_iff, not_not]
  exact List.mem_map_of_mem (mem_merged agree mem)

theorem verdict_merged (distinct : (entries.map c.key).Nodup)
    (distinct' : (incoming.map c.key).Nodup) (agree : c.Agree entries incoming)
    (mem : entry ∈ incoming) :
    c.verdict host (entries ++ c.added entries incoming) entry = .unchanged := by
  have found := (current?_eq_some (nodup_merged distinct distinct')).mpr
    ⟨mem_merged agree mem, rfl⟩
  simp [verdict, found, same]

theorem labels_merged (distinct : (entries.map c.key).Nodup)
    (distinct' : (incoming.map c.key).Nodup) (agree : c.Agree entries incoming)
    {verdict : Verdict} (other : verdict ≠ .unchanged) :
    c.labels host (entries ++ c.added entries incoming) incoming verdict = [] := by
  rw [labels, List.map_eq_nil_iff, List.filter_eq_nil_iff]
  intro entry mem
  rw [verdict_merged distinct distinct' agree mem]
  simpa using other.symm

end Collection

/-! ## Texts -/

section Texts

variable {host : ProfileHost} {current incoming : UserProfile}

theorem same_iff {left right : Json} (readable : JsonText.Readable host.format left)
    (readable' : JsonText.Readable host.format right) :
    same host left right = true ↔ left = right := by
  rw [same, beq_iff_eq]
  exact JsonText.stringify_inj readable readable'

/-- A profile that was validated, whose numbers the host reads back. -/
structure Sound (host : ProfileHost) (profile : UserProfile) : Prop where
  valid : profile.Valid host
  numbers : ReadsAll host profile.numbers

theorem sound_of_parse {value : Json} {profile : UserProfile}
    (readable : JsonText.Readable host.format value)
    (parsed : parseUserProfile host value = .ok profile) : Sound host profile := by
  obtain ⟨-, -, valid, -⟩ := parseUserProfile_eq_ok.mp parsed
  exact ⟨valid, reads_parseUserProfile readable parsed⟩

variable {profile : UserProfile}

theorem Sound.routing (sound : Sound host profile) {routing : CalibratedRouting}
    (mem : routing ∈ profile.calibratedRouting) : JsonText.Readable host.format routing.toJson :=
  readable_routing fun q held => sound.numbers q (List.mem_append_left _ (List.mem_append_left _
    (List.mem_flatMap.mpr ⟨routing, mem, held⟩)))

theorem Sound.record (sound : Sound host profile) {record : EconomicRecord}
    (mem : record ∈ profile.economicRecords) : JsonText.Readable host.format record.toJson :=
  readable_record (sound.numbers _ (List.mem_append_left _ (List.mem_append_right _
    (List.mem_map_of_mem mem))))

theorem Sound.range (sound : Sound host profile) {range : SubscriptionCapacityRange}
    (mem : range ∈ profile.subscriptionCapacityRanges) :
    JsonText.Readable host.format range.toJson :=
  readable_range fun q held => sound.numbers q (List.mem_append_right _
    (List.mem_flatMap.mpr ⟨range, mem, held⟩))

theorem exact_routing (sound : Sound host current) (sound' : Sound host incoming) :
    routingCollection.Exact host current.calibratedRouting incoming.calibratedRouting := by
  intro left mem right mem'
  refine (same_iff (sound.routing mem) (sound'.routing mem')).trans ⟨fun alike => ?_, by rintro rfl; rfl⟩
  have back := parseCalibratedRouting_again (sound.valid.routing left mem)
  rw [show left.toJson = right.toJson from alike,
    parseCalibratedRouting_again (sound'.valid.routing right mem')] at back
  exact (Except.ok.inj back).symm

theorem record_toJson_inj {left right : EconomicRecord} (valid : left.Valid host)
    (valid' : right.Valid host) (alike : left.toJson = right.toJson) : left = right := by
  have back := parseEconomicRecord_again valid
  rw [alike, parseEconomicRecord_again valid'] at back
  exact (Except.ok.inj back).symm

theorem exact_records (sound : Sound host current) (sound' : Sound host incoming) :
    recordCollection.Exact host current.economicRecords incoming.economicRecords := by
  intro left mem right mem'
  exact (same_iff (sound.record mem) (sound'.record mem')).trans
    ⟨record_toJson_inj (sound.valid.records left mem) (sound'.valid.records right mem'),
      by rintro rfl; rfl⟩

theorem exact_ranges (sound : Sound host current) (sound' : Sound host incoming) :
    capacityCollection.Exact host current.subscriptionCapacityRanges
      incoming.subscriptionCapacityRanges := by
  intro left mem right mem'
  refine (same_iff (sound.range mem) (sound'.range mem')).trans ⟨fun alike => ?_, by rintro rfl; rfl⟩
  have back := parseSubscriptionCapacityRange_again (sound.valid.ranges left mem)
  rw [show left.toJson = right.toJson from alike,
    parseSubscriptionCapacityRange_again (sound'.valid.ranges right mem')] at back
  exact (Except.ok.inj back).symm

end Texts

/-! ## Merges -/

section Merges

variable {host : ProfileHost} {current incoming : UserProfile}

/-- The profiles have the same entry wherever they have one under the same key. -/
structure Agrees (current incoming : UserProfile) : Prop where
  routing : routingCollection.Agree current.calibratedRouting incoming.calibratedRouting
  ranges : capacityCollection.Agree current.subscriptionCapacityRanges
    incoming.subscriptionCapacityRanges
  records : recordCollection.Agree current.economicRecords incoming.economicRecords

theorem conflicts_eq_nil_iff (sound : Sound host current) (sound' : Sound host incoming) :
    (planImport host current incoming .merge).conflicts = [] ↔ Agrees current incoming := by
  simp only [planImport, plannedLabels, List.append_eq_nil_iff]
  rw [Collection.labels_conflicting_eq_nil sound.valid.routingKeys (exact_routing sound sound'),
    Collection.labels_conflicting_eq_nil sound.valid.rangeKeys (exact_ranges sound sound'),
    Collection.labels_conflicting_eq_nil sound.valid.journal.nodup (exact_records sound sound')]
  constructor
  · rintro ⟨⟨routing, ranges⟩, records⟩
    exact ⟨routing, ranges, records⟩
  · rintro ⟨routing, ranges, records⟩
    exact ⟨⟨routing, ranges⟩, records⟩

/-- New records may follow the journal: what they refer back to is new as well, or held. -/
theorem journalAfter_added {held before rest : List EconomicRecord}
    (agree : recordCollection.Agree held (before ++ rest)) (journal : JournalAfter before rest) :
    JournalAfter (held ++ recordCollection.added held before) (recordCollection.added held rest) := by
  induction rest generalizing before with
  | nil => trivial
  | cons record rest ih =>
      have later := @ih (before ++ [record]) (by simpa using agree) journal.2
      rw [Collection.added_append] at later
      by_cases known : recordCollection.key record ∈ held.map recordCollection.key
      · rw [Collection.added_cons_of_held known] at later ⊢
        simpa [Collection.added] using later
      · rw [Collection.added_cons_of_new known] at later ⊢
        refine ⟨⟨?_, journal.1.value, ?_⟩, by simpa [Collection.added] using later⟩
        · rw [List.map_append, List.mem_append, not_or]
          exact ⟨known, fun mem => journal.1.fresh ((List.filter_sublist.map _).subset mem)⟩
        · intro previousId mem
          obtain ⟨other, among, alike⟩ := journal.1.previous previousId mem
          refine ⟨other, Collection.mem_merged ?_ among, alike⟩
          exact fun current inside entry inside' =>
            agree current inside entry (List.mem_append_left _ inside')

theorem valid_merged (valid : current.Valid host) (valid' : incoming.Valid host)
    (agree : Agrees current incoming) : (importedProfile current incoming .merge).Valid host where
  routing routing mem := by
    obtain mem | mem := List.mem_append.mp mem
    · exact valid.routing routing mem
    · exact valid'.routing routing (Collection.mem_added.mp mem).1
  routingKeys := by
    exact @Collection.nodup_merged _ routingCollection _ _ valid.routingKeys valid'.routingKeys
  records record mem := by
    obtain mem | mem := List.mem_append.mp mem
    · exact valid.records record mem
    · exact valid'.records record (Collection.mem_added.mp mem).1
  journal := by
    refine journalAfter_append.mpr ⟨valid.journal, ?_⟩
    simpa [Collection.added] using @journalAfter_added _ [] _ agree.records valid'.journal
  ranges range mem := by
    obtain mem | mem := List.mem_append.mp mem
    · exact valid.ranges range mem
    · exact valid'.ranges range (Collection.mem_added.mp mem).1
  rangeKeys := by
    exact @Collection.nodup_merged _ capacityCollection _ _ valid.rangeKeys valid'.rangeKeys
  capabilities := by rintro _ ⟨⟩

/-- The same merge again finds every entry unchanged. -/
theorem planImport_again (valid : current.Valid host) (valid' : incoming.Valid host)
    (agree : Agrees current incoming) :
    let merged := importedProfile current incoming .merge
    let preview := planImport host merged incoming .merge
    preview.creates = [] ∧ preview.updates = [] ∧ preview.conflicts = [] ∧
      preview.result = some merged := by
  have none_ {verdict : Verdict} (other : verdict ≠ .unchanged) :
      plannedLabels host (importedProfile current incoming .merge) incoming .merge verdict = [] := by
    simp only [plannedLabels, importedProfile,
      Collection.labels_merged valid.routingKeys valid'.routingKeys agree.routing other,
      Collection.labels_merged valid.rangeKeys valid'.rangeKeys agree.ranges other,
      Collection.labels_merged valid.journal.nodup valid'.journal.nodup agree.records other,
      List.append_nil]
  have whole : importedProfile (importedProfile current incoming .merge) incoming .merge =
      importedProfile current incoming .merge := by
    simp only [importedProfile, Collection.added_merged agree.routing,
      Collection.added_merged agree.ranges, Collection.added_merged agree.records, List.append_nil]
  refine ⟨none_ (by simp), rfl, none_ (by simp), ?_⟩
  simp only [planImport, none_ (show Verdict.conflicting ≠ .unchanged by simp), List.isEmpty_nil,
    if_true, whole]

end Merges

end AdCoder.UserProfiles
