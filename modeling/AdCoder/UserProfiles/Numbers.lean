import AdCoder.Foundation.JsonObjects
import AdCoder.UserProfiles.Import

/-!
# The numbers of a profile

A profile that was validated holds the numbers of the value that it was read from, and the
numbers decide whether its text is read back. Entries of profiles that are read back are
the same just when their texts are.
-/

namespace AdCoder.UserProfiles

open Foundation Foundation.JsonText
open Profiles (Profile ProfileEntry)

/-! ## Numbers -/

def profileNumbers (profile : Profile) : List Rat := profile.entries.filterMap (·.maxOutput)

def SubscriptionCapacityRange.numbers (range : SubscriptionCapacityRange) : List Rat :=
  [range.lowerBound, range.upperBound]

def UserProfile.numbers (profile : UserProfile) : List Rat :=
  profile.calibratedRouting.flatMap (fun routing => profileNumbers routing.profile) ++
    profile.economicRecords.map (·.value) ++
    profile.subscriptionCapacityRanges.flatMap (·.numbers)

/-- The host reads the numbers back from their texts. -/
def ReadsAll (host : ProfileHost) (numbers : List Rat) : Prop :=
  ∀ q ∈ numbers, Reads host.format (.finite q)

section Numbers

variable {host : ProfileHost}

theorem readable_profileEntry {entry : ProfileEntry}
    (reads : ∀ q ∈ entry.maxOutput, Reads host.format (.finite q)) :
    Readable host.format entry.toJson := by
  refine readable_object (by simp only [List.map_cons, List.map_nil]; decide) ?_
  intro property mem value held
  simp only [List.mem_cons, List.not_mem_nil, or_false] at mem
  rcases mem with rfl | rfl | rfl | rfl | rfl | rfl
  · cases held
    exact readable_str _
  · cases held
    exact readable_str _
  · cases held
    exact readable_str _
  · obtain ⟨q, mem, rfl⟩ := Option.map_eq_some_iff.mp held
    exact readable_num.mpr (reads q mem)
  · obtain ⟨x, -, rfl⟩ := Option.map_eq_some_iff.mp held
    exact readable_str _
  · obtain ⟨x, -, rfl⟩ := Option.map_eq_some_iff.mp held
    exact readable_str _

theorem readable_profile {profile : Profile} (reads : ReadsAll host (profileNumbers profile)) :
    Readable host.format profile.toJson := by
  rw [Profile.toJson, Readable, readableFields_iff, List.forall_mem_singleton, readable_arr]
  refine ⟨by simp, fun item mem => ?_⟩
  obtain ⟨entry, among, rfl⟩ := List.mem_map.mp mem
  exact readable_profileEntry fun q held => reads q (List.mem_filterMap.mpr ⟨entry, among, held⟩)

theorem readable_routing {routing : CalibratedRouting}
    (reads : ReadsAll host (profileNumbers routing.profile)) :
    Readable host.format routing.toJson := by
  refine readable_object (by simp only [List.map_cons, List.map_nil]; decide) ?_
  simp [readable_profile reads]

theorem readable_range {range : SubscriptionCapacityRange}
    (reads : ReadsAll host range.numbers) : Readable host.format range.toJson := by
  refine readable_object (by simp only [List.map_cons, List.map_nil]; decide) ?_
  simp [reads range.lowerBound (by simp [SubscriptionCapacityRange.numbers]),
    reads range.upperBound (by simp [SubscriptionCapacityRange.numbers])]

theorem readable_record {record : EconomicRecord}
    (reads : Reads host.format (.finite record.value)) : Readable host.format record.toJson := by
  refine readable_object (by simp only [List.map_cons, List.map_nil]; decide) ?_
  simp [reads]

/-! ## Numbers of what was read -/

theorem reads_lookup {fields : List (String × Json)} {name : String} {q : Rat}
    (readable : Readable host.format (.obj fields))
    (found : Json.lookup name fields = some (.num (.finite q))) : Reads host.format (.finite q) :=
  readable_num.mp (readable_lookup readable found)

theorem maxOutput_lookup {error : Profiles.ProfileError} {value : Option Json} {held : Option Rat}
    (h : Profiles.maxOutput error value = .ok held) :
    ∀ q ∈ held, value = some (.num (.finite q)) := by
  unfold Profiles.maxOutput at h
  split at h
  · cases h
    rintro _ ⟨⟩
  · split_ifs at h
    cases h
    rintro _ ⟨⟩
    rfl
  · cases h

theorem reads_parseEntry {before : List ProfileEntry} {value : Json} {entry : ProfileEntry}
    (readable : Readable host.format value) (h : Profiles.parseEntry before value = .ok entry) :
    ∀ q ∈ entry.maxOutput, Reads host.format (.finite q) := by
  cases value with
  | obj record =>
      simp only [Profiles.parseEntry] at h
      split at h
      · cases h
      · split at h
        · cases h
        · simp only [bind_eq_ok, require_eq_ok, pure_eq_ok] at h
          obtain ⟨-, -, -, -, held, hheld, _, -, _, -, rfl⟩ := h
          exact fun q mem => reads_lookup readable (maxOutput_lookup hheld q mem)
  | _ => cases h

theorem reads_parseEntries {items : List Json} {before entries : List ProfileEntry}
    (readable : ∀ item ∈ items, Readable host.format item)
    (start : ReadsAll host (before.filterMap (·.maxOutput)))
    (h : items.foldlM (fun validated item => do
      let entry ← Profiles.parseEntry validated item
      return validated ++ [entry]) before = .ok entries) :
    ReadsAll host (entries.filterMap (·.maxOutput)) := by
  induction items generalizing before with
  | nil =>
      obtain rfl : before = entries := by simpa [pure, Except.pure] using h
      exact start
  | cons item rest ih =>
      simp only [List.foldlM_cons, bind_eq_ok, pure_eq_ok] at h
      obtain ⟨_, ⟨entry, parsed, rfl⟩, later⟩ := h
      refine ih (fun other mem => readable other (List.mem_cons_of_mem _ mem)) ?_ later
      intro q mem
      rw [List.filterMap_append, List.mem_append] at mem
      obtain mem | mem := mem
      · exact start q mem
      · refine reads_parseEntry (readable item List.mem_cons_self) parsed q ?_
        simpa [List.mem_filterMap] using mem

theorem reads_parseProfile {value : Json} {profile : Profile}
    (readable : Readable host.format value) (h : Profiles.parseProfile value = .ok profile) :
    ReadsAll host (profileNumbers profile) := by
  cases value with
  | obj fields =>
      simp only [Profiles.parseProfile] at h
      split at h
      · next held =>
          obtain ⟨entries, parsed, rfl⟩ := map_eq_ok.mp h
          refine reads_parseEntries ?_ (fun q mem => by cases mem) parsed
          exact readable_arr.mp (readable_lookup readable held)
      · cases h
  | _ => cases h

/-- The numbers of a validated profile are read back when those of the value are. -/
theorem reads_parseUserProfile {value : Json} {profile : UserProfile}
    (readable : Readable host.format value) (h : parseUserProfile host value = .ok profile) :
    ReadsAll host profile.numbers := by
  obtain ⟨fields, rfl, -, described⟩ := parseUserProfile_eq_ok.mp h
  obtain ⟨routings, hroutings, parsedRouting⟩ := described.routing
  obtain ⟨records, hrecords, parsedRecords⟩ := described.records
  obtain ⟨ranges, hranges, parsedRanges⟩ := described.ranges
  have routing : ∀ routing ∈ profile.calibratedRouting,
      ReadsAll host (profileNumbers routing.profile) := by
    refine forall_mem_of_mapM (fun item mem routing parsed => ?_) parsedRouting
    obtain ⟨inner, rfl, -, inside⟩ := parseCalibratedRouting_eq_ok.mp parsed
    obtain ⟨held, found, -, -, -, -, -, -, read⟩ := inside.profile
    exact reads_parseProfile (readable_lookup (readable_arr.mp (readable_lookup readable hroutings)
      _ mem) found) read
  have record : ∀ record ∈ profile.economicRecords, Reads host.format (.finite record.value) := by
    refine forall_mem_of_mapM (fun item mem record parsed => ?_) parsedRecords
    obtain ⟨inner, rfl, -, inside⟩ := parseEconomicRecord_eq_ok.mp parsed
    exact reads_lookup (readable_arr.mp (readable_lookup readable hrecords) _ mem) inside.value
  have range : ∀ range ∈ profile.subscriptionCapacityRanges, ReadsAll host range.numbers := by
    refine forall_mem_of_mapM (fun item mem range parsed => ?_) parsedRanges
    obtain ⟨inner, rfl, -, inside⟩ := parseSubscriptionCapacityRange_eq_ok.mp parsed
    have held := readable_arr.mp (readable_lookup readable hranges) _ mem
    intro q mem
    simp only [SubscriptionCapacityRange.numbers, List.mem_cons, List.not_mem_nil, or_false] at mem
    obtain rfl | rfl := mem
    · exact reads_lookup held inside.lowerBound
    · exact reads_lookup held inside.upperBound
  intro q mem
  simp only [UserProfile.numbers, List.mem_append, List.mem_flatMap, List.mem_map] at mem
  obtain (⟨_, among, inside⟩ | ⟨_, among, rfl⟩) | ⟨_, among, inside⟩ := mem
  · exact routing _ among q inside
  · exact record _ among
  · exact range _ among q inside

end Numbers

end AdCoder.UserProfiles
