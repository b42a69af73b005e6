import AdCoder.Orchestration.PlanText

/-!
# Routing profiles

The strict validation of a routing profile: which model serves a role at a complexity.
-/

namespace AdCoder.Profiles

open Foundation
open Orchestration (Complexity)

/-- `PROFILE_ROLES`. -/
inductive ProfileRole where
  | orchestrator
  | planner
  | researcher
  | coder
  | reviewer
  | auditor
  | security
  | summarizer
  deriving DecidableEq

def ProfileRole.text : ProfileRole → String
  | orchestrator => "orchestrator"
  | planner => "planner"
  | researcher => "researcher"
  | coder => "coder"
  | reviewer => "reviewer"
  | auditor => "auditor"
  | security => "security"
  | summarizer => "summarizer"

def profileRoles : List ProfileRole :=
  [.orchestrator, .planner, .researcher, .coder, .reviewer, .auditor, .security, .summarizer]

/-- `COMPLEXITIES`. -/
def complexities : List Complexity := [.trivial, .medium, .complex]

inductive CacheRetention where
  | none
  | short
  | long
  deriving DecidableEq

def CacheRetention.text : CacheRetention → String
  | none => "none"
  | short => "short"
  | long => "long"

/-- `CACHE_RETENTIONS`. -/
def cacheRetentions : List CacheRetention := [.none, .short, .long]

inductive ThinkingLevel where
  | off
  | minimal
  | low
  | medium
  | high
  | xhigh
  | max
  deriving DecidableEq

def ThinkingLevel.text : ThinkingLevel → String
  | off => "off"
  | minimal => "minimal"
  | low => "low"
  | medium => "medium"
  | high => "high"
  | xhigh => "xhigh"
  | max => "max"

/-- `THINKING_LEVELS`. -/
def thinkingLevels : List ThinkingLevel := [.off, .minimal, .low, .medium, .high, .xhigh, .max]

/-- The listed value with a text. -/
def ofText? {α : Type} (values : List α) (text : α → String) : Option Json → Option α
  | some (.str s) => values.find? fun x => text x == s
  | _ => Option.none

inductive ProfileErrorCode where
  | invalidConfig
  | duplicateEntry
  | unknownRole
  | invalidComplexity
  deriving DecidableEq

structure ProfileError where
  code : ProfileErrorCode
  detail : String
  message : String
  deriving DecidableEq

structure ProfileEntry where
  role : ProfileRole
  complexity : Complexity
  model : String
  maxOutput : Option Rat
  cacheRetention : Option CacheRetention
  thinkingLevel : Option ThinkingLevel
  deriving DecidableEq

structure Profile where
  entries : List ProfileEntry
  deriving DecidableEq

/-- The cell of an entry. -/
def ProfileEntry.key (entry : ProfileEntry) : String :=
  entry.role.text ++ ":" ++ Complexity.text entry.complexity

/-- A rejected field: its own text where it has one, its name otherwise. -/
def offender (name : String) (value : Option Json) : String := (Json.asString? value).getD name

/-- A field that may be absent but must be one of the listed values when it is present. -/
def optionalText {α : Type} (values : List α) (text : α → String) (error : ProfileError) :
    Option Json → Except ProfileError (Option α)
  | Option.none => .ok Option.none
  | some value =>
      match ofText? values text (some value) with
      | some x => .ok (some x)
      | Option.none => .error error

def maxOutput (error : ProfileError) : Option Json → Except ProfileError (Option Rat)
  | Option.none => .ok Option.none
  | some (.num (.finite q)) => if 0 < q then .ok (some q) else .error error
  | some _ => .error error

/-- `values.join(", ")`. -/
def listed {α : Type} (values : List α) (text : α → String) : String :=
  ", ".intercalate (values.map text)

/-- One entry, after those that were validated before it. -/
def parseEntry (before : List ProfileEntry) : Json → Except ProfileError ProfileEntry
  | .obj record =>
      match ofText? profileRoles ProfileRole.text (Json.lookup "role" record) with
      | Option.none => .error ⟨.unknownRole, offender "role" (Json.lookup "role" record),
          "entry.role must be one of " ++ listed profileRoles ProfileRole.text⟩
      | some role =>
          match ofText? complexities Complexity.text (Json.lookup "complexity" record) with
          | Option.none => .error ⟨.invalidComplexity,
              offender "complexity" (Json.lookup "complexity" record),
              "entry.complexity must be one of " ++ listed complexities Complexity.text⟩
          | some complexity => do
              let key := role.text ++ ":" ++ Complexity.text complexity
              require (!(before.map (·.key)).contains key) ⟨.duplicateEntry, key,
                "profile declares (role, complexity) \"" ++ key ++ "\" more than once"⟩
              let model := (Json.asString? (Json.lookup "model" record)).getD ""
              require (model != "") ⟨.invalidConfig, key ++ ".model",
                "entry.model must be a non-empty string"⟩
              let maxOutput ← maxOutput ⟨.invalidConfig, key ++ ".maxOutput",
                "entry.maxOutput must be a positive finite number when present"⟩
                (Json.lookup "maxOutput" record)
              let cacheRetention ← optionalText cacheRetentions CacheRetention.text
                ⟨.invalidConfig, key ++ ".cacheRetention", "entry.cacheRetention must be one of " ++
                  listed cacheRetentions CacheRetention.text ++ " when present"⟩
                (Json.lookup "cacheRetention" record)
              let thinkingLevel ← optionalText thinkingLevels ThinkingLevel.text
                ⟨.invalidConfig, key ++ ".thinkingLevel", "entry.thinkingLevel must be one of " ++
                  listed thinkingLevels ThinkingLevel.text ++ " when present"⟩
                (Json.lookup "thinkingLevel" record)
              return ⟨role, complexity, model, maxOutput, cacheRetention, thinkingLevel⟩
  | _ => .error ⟨.invalidConfig, "entry", "each profile entry must be an object"⟩

def parseEntries (items : List Json) : Except ProfileError (List ProfileEntry) :=
  items.foldlM (fun validated item => do
    let entry ← parseEntry validated item
    return validated ++ [entry]) []

def parseProfile : Json → Except ProfileError Profile
  | .obj fields =>
      match Json.lookup "entries" fields with
      | some (.arr (item :: items)) => (parseEntries (item :: items)).map fun entries => ⟨entries⟩
      | _ => .error ⟨.invalidConfig, "entries", "profile.entries must be a non-empty array"⟩
  | _ => .error ⟨.invalidConfig, "profile", "profile must be an object"⟩

def ProfileEntry.toJson (entry : ProfileEntry) : Json := Json.object [
  ("role", some (.str entry.role.text)), ("complexity", some (.str (Complexity.text entry.complexity))),
  ("model", some (.str entry.model)), ("maxOutput", entry.maxOutput.map fun q => .num (.finite q)),
  ("cacheRetention", entry.cacheRetention.map fun x => .str x.text),
  ("thinkingLevel", entry.thinkingLevel.map fun x => .str x.text)]

def Profile.toJson (profile : Profile) : Json :=
  .obj [("entries", .arr (profile.entries.map (·.toJson)))]

/-! ## Reading back -/

section Again

variable {α : Type} {values : List α} {text : α → String}

theorem ofText?_text (all : ∀ x, x ∈ values) (injective : Function.Injective text) (x : α) :
    ofText? values text (some (.str (text x))) = some x := by
  cases found : values.find? (fun y => text y == text x) with
  | none => simpa using List.find?_eq_none.mp found x (all x)
  | some y =>
      have same : text y = text x := by simpa using List.find?_some found
      rw [ofText?, found, injective same]

theorem mem_profileRoles (x : ProfileRole) : x ∈ profileRoles := by cases x <;> decide

theorem mem_complexities (x : Complexity) : x ∈ complexities := by cases x <;> decide

theorem mem_cacheRetentions (x : CacheRetention) : x ∈ cacheRetentions := by cases x <;> decide

theorem mem_thinkingLevels (x : ThinkingLevel) : x ∈ thinkingLevels := by cases x <;> decide

theorem optionalText_again (all : ∀ x, x ∈ values) (injective : Function.Injective text)
    (error : ProfileError) (value : Option α) :
    optionalText values text error (value.map fun x => .str (text x)) = .ok value := by
  cases value with
  | none => rfl
  | some x =>
      rw [Option.map_some, optionalText, ofText?_text all injective]

theorem maxOutput_eq_ok {error : ProfileError} {value : Option Json} {q : Option Rat}
    (h : maxOutput error value = .ok q) : ∀ r ∈ q, 0 < r := by
  unfold maxOutput at h
  split at h
  · obtain rfl := Except.ok.inj h
    rintro _ ⟨⟩
  · next r =>
      split_ifs at h with positive
      obtain rfl := Except.ok.inj h
      rintro _ ⟨⟩
      exact positive
  · cases h

theorem maxOutput_again {error : ProfileError} {q : Option Rat} (positive : ∀ r ∈ q, 0 < r) :
    maxOutput error (q.map fun q => .num (.finite q)) = .ok q := by
  cases q with
  | none => rfl
  | some r => exact if_pos (positive r rfl)

/-- What validation promises of an entry, beside its cell being new. -/
structure ProfileEntry.Valid (entry : ProfileEntry) : Prop where
  model : entry.model ≠ ""
  maxOutput : ∀ q ∈ entry.maxOutput, 0 < q

theorem parseEntry_eq_ok {before : List ProfileEntry} {value : Json} {entry : ProfileEntry}
    (h : parseEntry before value = .ok entry) :
    entry.key ∉ before.map (·.key) ∧ entry.Valid := by
  cases value with
  | obj record =>
      simp only [parseEntry] at h
      split at h
      · cases h
      · next role _ =>
          split at h
          · cases h
          · next complexity _ =>
              simp only [bind_eq_ok, require_eq_ok, pure_eq_ok] at h
              obtain ⟨-, fresh, -, filled, q, hq, _, -, _, -, rfl⟩ := h
              refine ⟨?_, bne_iff_ne.mp filled, maxOutput_eq_ok hq⟩
              simpa [ProfileEntry.key] using fresh
  | _ => cases h

theorem parseEntry_again {before : List ProfileEntry} {entry : ProfileEntry}
    (fresh : entry.key ∉ before.map (·.key)) (valid : entry.Valid) :
    parseEntry before entry.toJson = .ok entry := by
  have role : ofText? profileRoles ProfileRole.text (some (.str entry.role.text)) =
      some entry.role :=
    ofText?_text mem_profileRoles (fun x y => by cases x <;> cases y <;> decide) _
  have complexity : ofText? complexities Complexity.text (some (.str entry.complexity.text)) =
      some entry.complexity :=
    ofText?_text mem_complexities (fun x y => by cases x <;> cases y <;> decide) _
  simp only [ProfileEntry.toJson, Json.object, parseEntry, Json.lookup_fields_cons,
    Json.lookup_fields_nil, String.reduceEq, if_true, if_false, Option.some_or, Option.or_none,
    role, complexity, Json.asString?, Option.getD_some, bind_eq_ok, require_eq_ok, pure_eq_ok]
  refine ⟨(), ?_, (), bne_iff_ne.mpr valid.model, _, maxOutput_again valid.maxOutput, _,
    optionalText_again mem_cacheRetentions (fun x y => by cases x <;> cases y <;> decide) _ _, _,
    optionalText_again mem_thinkingLevels (fun x y => by cases x <;> cases y <;> decide) _ _, rfl⟩
  simpa [ProfileEntry.key] using fresh

/-- The entries of a validated profile. -/
structure Profile.Valid (profile : Profile) : Prop where
  filled : profile.entries ≠ []
  distinct : (profile.entries.map (·.key)).Nodup
  each : ∀ entry ∈ profile.entries, entry.Valid

theorem parseEntries_eq_ok {items : List Json} {before entries : List ProfileEntry}
    (h : items.foldlM (fun validated item => do
      let entry ← parseEntry validated item
      return validated ++ [entry]) before = .ok entries)
    (distinct : (before.map (·.key)).Nodup) (each : ∀ entry ∈ before, entry.Valid) :
    (entries.map (·.key)).Nodup ∧ (∀ entry ∈ entries, entry.Valid) ∧
      entries.length = before.length + items.length := by
  induction items generalizing before with
  | nil =>
      obtain rfl : before = entries := by simpa [pure, Except.pure] using h
      exact ⟨distinct, each, rfl⟩
  | cons item rest ih =>
      simp only [List.foldlM_cons, bind_eq_ok, pure_eq_ok] at h
      obtain ⟨_, ⟨entry, parsed, rfl⟩, later⟩ := h
      obtain ⟨fresh, valid⟩ := parseEntry_eq_ok parsed
      obtain ⟨distinct', each', count⟩ := ih later
        (by
          rw [List.map_append, List.nodup_append]
          refine ⟨distinct, by simp, fun key mem other among => ?_⟩
          rw [show other = entry.key by simpa using among]
          exact fun same => fresh (same ▸ mem))
        (by
          intro other mem
          obtain mem | mem := List.mem_append.mp mem
          · exact each other mem
          · obtain rfl := List.mem_singleton.mp mem
            exact valid)
      refine ⟨distinct', each', ?_⟩
      simp only [count, List.length_append, List.length_cons, List.length_nil]
      omega

theorem parseEntries_again {before entries : List ProfileEntry}
    (distinct : ((before ++ entries).map (·.key)).Nodup)
    (each : ∀ entry ∈ entries, entry.Valid) :
    (entries.map (·.toJson)).foldlM (fun validated item => do
      let entry ← parseEntry validated item
      return validated ++ [entry]) before = .ok (before ++ entries) := by
  induction entries generalizing before with
  | nil => simp [pure, Except.pure]
  | cons entry rest ih =>
      have fresh : entry.key ∉ before.map (·.key) := by
        rw [List.map_append, List.nodup_append] at distinct
        intro mem
        exact distinct.2.2 _ mem _ (by simp) rfl
      have regroup : before ++ entry :: rest = (before ++ [entry]) ++ rest := by simp
      simp only [List.map_cons, List.foldlM_cons, bind_eq_ok, pure_eq_ok]
      refine ⟨_, ⟨entry, parseEntry_again fresh (each entry List.mem_cons_self), rfl⟩, ?_⟩
      rw [regroup] at distinct ⊢
      exact ih distinct fun other mem => each other (List.mem_cons_of_mem _ mem)

theorem parseProfile_eq_ok {value : Json} {profile : Profile} (h : parseProfile value = .ok profile) :
    profile.Valid := by
  cases value with
  | obj fields =>
      simp only [parseProfile] at h
      split at h
      · obtain ⟨entries, parsed, rfl⟩ := map_eq_ok.mp h
        obtain ⟨distinct, each, count⟩ := parseEntries_eq_ok parsed List.nodup_nil
          fun _ mem => (List.not_mem_nil mem).elim
        refine ⟨?_, distinct, each⟩
        rintro rfl
        cases count
      · cases h
  | _ => cases h

/-- A validated profile is validated again as it is. -/
theorem parseProfile_again {profile : Profile} (valid : profile.Valid) :
    parseProfile profile.toJson = .ok profile := by
  obtain ⟨entries⟩ := profile
  have parsed := @parseEntries_again [] entries (by simpa using valid.distinct) valid.each
  cases entries with
  | nil => exact absurd rfl valid.filled
  | cons entry rest =>
      simp only [Profile.toJson, parseProfile, Json.lookup_cons, if_true, List.map_cons]
      rw [map_eq_ok]
      exact ⟨_, parsed, rfl⟩

end Again

end AdCoder.Profiles
