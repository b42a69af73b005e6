import AdCoder.Foundation.RegexLaws
import AdCoder.ProjectOperations.FollowUps
import Mathlib.Data.Rat.Defs

/-!
# Persisted follow-ups read back

A validated candidate that is projected and written as JSON validates again and
gives the projected candidate: an identifier that was accepted inside a longer
text is accepted alone, and the two fixed texts of the projection are accepted.
-/

namespace AdCoder.ProjectOperations

open Foundation Foundation.Regex

/-! ## Identifiers -/

theorem isIdentifierChar_range {x : Char} (h : isIdentifierChar x = true) :
    45 ≤ x.toNat ∧ x.toNat ≤ 122 := by
  have le (a b : Char) : a ≤ b ↔ a.toNat ≤ b.toNat := Char.le_def.trans UInt32.le_iff_toNat_le
  simp only [isIdentifierChar, isAlnum, isLetter, isDigit, Bool.or_eq_true, Bool.and_eq_true,
    decide_eq_true_eq, beq_iff_eq, le] at h
  have chars : 'a'.toNat = 97 ∧ 'z'.toNat = 122 ∧ 'A'.toNat = 65 ∧ 'Z'.toNat = 90 ∧
    '0'.toNat = 48 ∧ '9'.toNat = 57 := by decide
  rcases h with (((h | rfl) | rfl) | rfl) | rfl
  · omega
  all_goals decide

theorem isSpace_of_isIdentifierChar {x : Char} (h : isIdentifierChar x = true) :
    isSpace x = false := by
  obtain ⟨low, high⟩ := isIdentifierChar_range h
  exact isSpace_of_range (by omega) (by omega)

/-- An identifier is a non-empty word of identifier characters. -/
theorem identifier_chars {text : String} (h : identifier.test text = true) :
    text.toList ≠ [] ∧ ∀ x ∈ text.toList, isIdentifierChar x = true := by
  obtain ⟨c, word, e, ⟨hafter, hbefore⟩, he⟩ := test_eq_true.mp h
  simp only [identifier, Regex.sequence, List.foldr_cons, List.foldr_nil] at he
  obtain ⟨start, hstart, he⟩ := List.mem_flatMap.mp he
  obtain ⟨first, hfirst, he⟩ := List.mem_flatMap.mp he
  obtain ⟨last, hlast, he⟩ := List.mem_flatMap.mp he
  obtain ⟨finish, hfinish, _⟩ := List.mem_flatMap.mp he
  have begins : c.before = [] ∧ start = c := by
    simp only [atStart, ends] at hstart
    split_ifs at hstart with empty
    · exact ⟨List.isEmpty_iff.mp empty, List.mem_singleton.mp hstart⟩
    · cases hstart
  have finishes : last.after = [] := by
    simp only [atEnd, ends] at hfinish
    split_ifs at hfinish with empty
    · exact List.isEmpty_iff.mp empty
    · cases hfinish
  obtain ⟨hword, hstart⟩ := begins
  have whole : text.toList = start.after := by
    rw [hword, List.append_nil] at hbefore
    rw [List.reverse_eq_nil_iff.mp hbefore.symm] at hafter
    rw [hstart]
    exact hafter
  obtain ⟨letters, ⟨hletters, _⟩, all⟩ := mem_ends_rep_one hlast
  cases hrest : start.after with
  | nil => simp [ends, hrest] at hfirst
  | cons x rest =>
      simp only [ends, hrest] at hfirst
      split_ifs at hfirst with alnum
      · obtain rfl := List.mem_singleton.mp hfirst
        rw [finishes, List.append_nil] at hletters
        rw [whole, hrest]
        refine ⟨by simp, ?_⟩
        intro y hy
        rcases List.mem_cons.mp hy with rfl | hy
        · simp [isIdentifierChar, alnum]
        · exact all y (hletters ▸ hy)
      · cases hfirst

/-- A heading needs a number sign, which no identifier has. -/
theorem forbiddenHeading_sign {text : String} (h : forbiddenHeading.test text = true) :
    '#' ∈ text.toList := by
  obtain ⟨c, word, e, ⟨hafter, _⟩, he⟩ := test_eq_true.mp h
  simp only [forbiddenHeading, Regex.sequence, List.foldr_cons, List.foldr_nil] at he
  obtain ⟨line, hline, he⟩ := List.mem_flatMap.mp he
  obtain ⟨blank, hblank, he⟩ := List.mem_flatMap.mp he
  obtain ⟨sign, hsign, _⟩ := List.mem_flatMap.mp he
  obtain ⟨v, ⟨hv, _⟩, _⟩ := consumes_ends _ c line hline
  obtain ⟨w, ⟨hw, _⟩, _⟩ := consumes_ends _ line blank hblank
  have here : '#' ∈ blank.after := by
    have single : literal "#" = .seq (.one (· == '#')) .empty := by
      have : "#".toList = ['#'] := by decide
      simp [literal, this]
    rw [single] at hsign
    obtain ⟨m, hm, _⟩ := List.mem_flatMap.mp hsign
    cases hrest : blank.after with
    | nil => simp [ends, hrest] at hm
    | cons x rest =>
        simp only [ends, hrest] at hm
        split_ifs at hm with heq
        · simp [beq_iff_eq.mp heq]
        · cases hm
  have subject : text.toList = word ++ (v ++ (w ++ blank.after)) := by
    rw [← hw, ← hv]
    exact hafter
  rw [subject]
  simp [here]

theorem forbiddenContent_plain : forbiddenContent.plain = true := by
  decide

theorem forbidden_test (text : String) :
    forbidden.test text = (forbiddenContent.test text || forbiddenHeading.test text) := by
  rw [Bool.eq_iff_iff, Bool.or_eq_true]
  simp only [test_eq_true, forbidden, ends, List.mem_append]
  constructor
  · rintro ⟨c, word, e, reaches, he | he⟩
    · exact Or.inl ⟨c, word, e, reaches, he⟩
    · exact Or.inr ⟨c, word, e, reaches, he⟩
  · rintro (⟨c, word, e, reaches, he⟩ | ⟨c, word, e, reaches, he⟩)
    · exact ⟨c, word, e, reaches, Or.inl he⟩
    · exact ⟨c, word, e, reaches, Or.inr he⟩

theorem safeText_eq_ok {name : String} {value : Option Json} {text : String}
    (h : safeText name value = .ok text) :
    ∃ s, value = some (.str s) ∧ text = trim s ∧ trim s ≠ "" ∧ hasLineBreakOrNul s = false ∧
      forbidden.test s = false := by
  unfold safeText at h
  split at h
  · next s =>
      split_ifs at h with blank bad
      obtain ⟨clean, allowed⟩ := Bool.or_eq_false_iff.mp (Bool.eq_false_iff.mpr bad)
      exact ⟨s, rfl, (Except.ok.inj h).symm, blank, clean, allowed⟩
  · cases h

/-- An accepted identifier is accepted again as it was returned. -/
theorem safeIdentifier_again {name : String} {value : Option Json} {text : String}
    (h : safeIdentifier name value = .ok text) :
    safeIdentifier name (some (.str text)) = .ok text := by
  simp only [safeIdentifier, bind_eq_ok, require_eq_ok, pure_eq_ok] at h
  obtain ⟨trimmed, hsafe, _, safe, rfl⟩ := h
  obtain ⟨s, _, htrim, nonempty, _, allowed⟩ := safeText_eq_ok hsafe
  obtain ⟨_, chars⟩ := identifier_chars
    (Bool.and_eq_true_iff.mp (Bool.and_eq_true_iff.mp safe).1).1
  have same : trim trimmed = trimmed := by
    rw [trim, trimList_eq_self fun x hx => isSpace_of_isIdentifierChar (chars x hx),
      String.ofList_toList]
  have clean : hasLineBreakOrNul trimmed = false := by
    rw [hasLineBreakOrNul, List.any_eq_false]
    intro x hx
    obtain ⟨low, _⟩ := isIdentifierChar_range (chars x hx)
    have zero : (x.toNat == 0) = false := beq_eq_false_iff_ne.mpr (by omega)
    have breaks : x ≠ '\r' ∧ x ≠ '\n' := by
      constructor
      all_goals
        rintro rfl
        exact absurd low (by decide)
    simp [zero, breaks]
  have heading : forbiddenHeading.test trimmed = false := by
    rw [Bool.eq_false_iff]
    intro found
    obtain ⟨low, _⟩ := isIdentifierChar_range (chars '#' (forbiddenHeading_sign found))
    exact absurd low (by decide)
  have content : forbiddenContent.test trimmed = false := by
    rw [Bool.eq_false_iff]
    intro found
    obtain ⟨front, back, part, -, -⟩ := trimList_part s.toList
    have whole : forbiddenContent.test s = true := by
      rw [← String.ofList_toList (s := s), part]
      apply test_of_part forbiddenContent_plain
      rw [htrim] at found
      exact found
    rw [forbidden_test, whole] at allowed
    cases allowed
  have accepted : safeText name (some (.str trimmed)) = .ok trimmed := by
    simp only [safeText, same]
    rw [if_neg (htrim ▸ nonempty), if_neg]
    simp [clean, forbidden_test, heading, content]
  simp [safeIdentifier, accepted, safe, require, bind, Except.bind, pure, Except.pure]

theorem optionalIdentifier_again {name : String} {value : Option Json} {text : Option String}
    (h : optionalIdentifier name value = .ok text) :
    optionalIdentifier name (text.map .str) = .ok text := by
  cases value with
  | none =>
      obtain rfl := Except.ok.inj h
      rfl
  | some value =>
      obtain ⟨s, hs, rfl⟩ := map_eq_ok.mp h
      simp only [optionalIdentifier, Option.map_some, safeIdentifier_again hs]
      rfl

/-! ## Records -/

@[simp] theorem lookup_member_append (name key : String) (value : Option Json)
    (rest : List (String × Json)) :
    Json.lookup name (member key value ++ rest) =
      (if key = name then value else none).or (Json.lookup name rest) := by
  cases value with
  | none => simp [member]
  | some value =>
      by_cases h : key = name
      · simp [member, h]
      · simp [member, h]

@[simp] theorem lookup_member (name key : String) (value : Option Json) :
    Json.lookup name (member key value) = if key = name then value else none := by
  simpa using lookup_member_append name key value []

@[simp] theorem exactKeys_append (allowed : List String) (front back : List (String × Json)) :
    exactKeys allowed (front ++ back) = (exactKeys allowed front && exactKeys allowed back) := by
  simp [exactKeys]

@[simp] theorem exactKeys_cons (allowed : List String) (field : String × Json)
    (rest : List (String × Json)) :
    exactKeys allowed (field :: rest) = (allowed.contains field.1 && exactKeys allowed rest) :=
  rfl

@[simp] theorem exactKeys_nil (allowed : List String) : exactKeys allowed [] = true := rfl

theorem exactKeys_member {allowed : List String} {key : String} (value : Option Json)
    (h : allowed.contains key = true) : exactKeys allowed (member key value) = true := by
  cases value with
  | none => rfl
  | some value => simpa [member] using h

section Items

variable {α : Type} {validate : Json → Except ProjectOperationsError α}

theorem mapM_mem {values : List Json} {items : List α} (h : values.mapM validate = .ok items)
    {item : α} (hitem : item ∈ items) : ∃ value, validate value = .ok item := by
  induction values generalizing items with
  | nil =>
      obtain rfl := Except.ok.inj h
      cases hitem
  | cons value rest ih =>
      simp only [List.mapM_cons, bind_eq_ok, pure_eq_ok] at h
      obtain ⟨first, hfirst, others, hothers, rfl⟩ := h
      rcases List.mem_cons.mp hitem with rfl | hitem
      · exact ⟨value, hfirst⟩
      · exact ih hothers hitem

theorem mapM_map {items : List α} {write : α → Json}
    (h : ∀ item ∈ items, validate (write item) = .ok item) :
    (items.map write).mapM validate = .ok items := by
  induction items with
  | nil => rfl
  | cons item rest ih =>
      simp only [List.map_cons, List.mapM_cons, bind_eq_ok, pure_eq_ok]
      exact ⟨item, h item (by simp), rest, ih fun other hother => h other (by simp [hother]), rfl⟩

theorem validateItems_eq_ok {name : String} {value : Option Json} {items : List α}
    (h : validateItems name validate value = .ok items) :
    items ≠ [] ∧ ∀ item ∈ items, ∃ value, validate value = .ok item := by
  unfold validateItems at h
  split at h
  · next value rest =>
      refine ⟨?_, fun item hitem => mapM_mem h hitem⟩
      simp only [List.mapM_cons, bind_eq_ok, pure_eq_ok] at h
      obtain ⟨_, _, _, _, rfl⟩ := h
      simp
  · cases h

theorem validateItems_map {name : String} {items : List α} {write : α → Json}
    (nonempty : items ≠ []) (h : ∀ item ∈ items, validate (write item) = .ok item) :
    validateItems name validate (some (.arr (items.map write))) = .ok items := by
  cases items with
  | nil => cases nonempty rfl
  | cons item rest => exact mapM_map h

end Items

theorem evidenceLine_again {value : Option Json} {line : Option Nat}
    (h : evidenceLine value = .ok line) :
    evidenceLine (line.map fun (n : Nat) => .num (.finite n)) = .ok line := by
  unfold evidenceLine at h
  split at h
  · obtain rfl := Except.ok.inj h
    rfl
  · next q =>
      split_ifs at h with valid
      obtain rfl := Except.ok.inj h
      have whole : ((q.num.toNat : Nat) : Rat) = q := by
        have den : q.den = 1 := beq_iff_eq.mp (Bool.and_eq_true_iff.mp valid.1).1
        have num : 0 ≤ q.num := Rat.num_nonneg.mpr (Rat.le_of_lt valid.2)
        rw [← Rat.intCast_natCast, Int.toNat_of_nonneg num]
        exact (Rat.den_eq_one_iff q).mp den
      rw [Option.map_some, whole, evidenceLine, if_pos valid]
  · cases h

theorem evidenceSha256_again {value : Option Json} {sha256 : Option String}
    (h : evidenceSha256 value = .ok sha256) :
    evidenceSha256 (sha256.map .str) = .ok sha256 := by
  unfold evidenceSha256 at h
  split at h
  · obtain rfl := Except.ok.inj h
    rfl
  · next text =>
      split_ifs at h with valid
      obtain rfl := Except.ok.inj h
      rw [Option.map_some, evidenceSha256, if_pos valid]
  · cases h

/-- The fixed summary of the projection. -/
theorem safeText_metadata :
    safeText "evidence.summary" (some (.str "Evidence metadata")) = .ok "Evidence metadata" := by
  decide +kernel

/-- The fixed title of the projection. -/
theorem safeText_redacted :
    safeText "title" (some (.str "Redacted backlog candidate")) =
      .ok "Redacted backlog candidate" := by
  decide +kernel

theorem validateEvidence_again {value : Json} {evidence : FollowUpEvidence}
    (h : validateEvidence value = .ok evidence) :
    validateEvidence { evidence with summary := "Evidence metadata" }.toJson =
      .ok { evidence with summary := "Evidence metadata" } := by
  cases value with
  | obj fields =>
      simp only [validateEvidence, bind_eq_ok, require_eq_ok, pure_eq_ok] at h
      obtain ⟨_, _, summary, _, path, hpath, line, hline, sha256, hsha256, rfl⟩ := h
      simp only [FollowUpEvidence.toJson, validateEvidence, bind_eq_ok, require_eq_ok, pure_eq_ok]
      refine ⟨(), ?_, _, safeText_metadata, path, ?_, line, ?_, sha256, ?_, rfl⟩
      · simp [exactKeys_member]
      · simpa using optionalIdentifier_again hpath
      · simpa using evidenceLine_again hline
      · simpa using evidenceSha256_again hsha256
  | _ => cases h

theorem validateProvenance_again {value : Json} {provenance : FollowUpProvenance}
    (h : validateProvenance value = .ok provenance) :
    validateProvenance provenance.toJson = .ok provenance := by
  cases value with
  | obj fields =>
      simp only [validateProvenance, bind_eq_ok, require_eq_ok, pure_eq_ok] at h
      obtain ⟨_, _, producer, hproducer, runId, hrunId, branch, hbranch, rfl⟩ := h
      simp only [FollowUpProvenance.toJson, validateProvenance, bind_eq_ok, require_eq_ok,
        pure_eq_ok]
      refine ⟨(), ?_, producer, ?_, runId, ?_, branch, ?_, rfl⟩
      · simp [exactKeys_member]
      · simpa using safeIdentifier_again hproducer
      · simpa using safeIdentifier_again hrunId
      · simpa using optionalIdentifier_again hbranch
  | _ => cases h

theorem followUpPriority_again (priority : Option BacklogPriority) :
    followUpPriority (priority.map fun p => .str p.text) = .ok priority := by
  cases priority with
  | none => rfl
  | some priority => simp [followUpPriority, Json.asString?]

/-- A validated candidate: its evidence and provenance validated item by item. -/
theorem validateFollowUp_backlog {showNumber : JsNumber → String} {evidenceLimit : Nat}
    {value : Json} {candidate : BacklogFollowUp}
    (h : validateFollowUp showNumber evidenceLimit value = .ok (.backlog candidate)) :
    (candidate.evidence ≠ [] ∧
      ∀ evidence ∈ candidate.evidence, ∃ value, validateEvidence value = .ok evidence) ∧
    candidate.provenance ≠ [] ∧
      ∀ provenance ∈ candidate.provenance, ∃ value, validateProvenance value = .ok provenance := by
  cases value with
  | obj fields =>
      simp only [validateFollowUp] at h
      split at h
      · cases h
      · simp only [bind_eq_ok, require_eq_ok] at h
        obtain ⟨_, _, title, _, _, _, _, _, evidence, hevidence, _, _, provenance, hprovenance,
          h⟩ := h
        split_ifs at h
        · simp only [bind_eq_ok, pure_eq_ok] at h
          obtain ⟨_, _, h⟩ := h
          cases h
        · simp only [pure_eq_ok] at h
          cases h
        · simp only [bind_eq_ok, pure_eq_ok] at h
          obtain ⟨_, _, h⟩ := h
          cases h
        · simp only [bind_eq_ok, pure_eq_ok] at h
          obtain ⟨priority, _, h⟩ := h
          obtain rfl := FollowUp.backlog.inj h
          exact ⟨validateItems_eq_ok hevidence, validateItems_eq_ok hprovenance⟩
  | _ => cases h

/-- The projection of a validated candidate reads back as it was written. -/
theorem validateFollowUp_again {showNumber : JsNumber → String} {evidenceLimit : Nat}
    {value : Json} {candidate : BacklogFollowUp}
    (h : validateFollowUp showNumber evidenceLimit value = .ok (.backlog candidate)) :
    validateFollowUp showNumber 0 (projectBacklogFollowUp candidate).toJson =
      .ok (.backlog (projectBacklogFollowUp candidate)) := by
  obtain ⟨⟨someEvidence, hevidence⟩, someProvenance, hprovenance⟩ := validateFollowUp_backlog h
  have evidence : validateItems "evidence" validateEvidence (some (.arr
      ((projectBacklogFollowUp candidate).evidence.map (·.toJson)))) =
      .ok (projectBacklogFollowUp candidate).evidence := by
    apply validateItems_map
    · simpa [projectBacklogFollowUp] using someEvidence
    · intro item hitem
      obtain ⟨source, hsource, rfl⟩ := List.mem_map.mp hitem
      obtain ⟨value, hvalue⟩ := hevidence source hsource
      exact validateEvidence_again hvalue
  have provenance : validateItems "provenance" validateProvenance (some (.arr
      ((projectBacklogFollowUp candidate).provenance.map (·.toJson)))) =
      .ok (projectBacklogFollowUp candidate).provenance := by
    apply validateItems_map someProvenance
    intro item hitem
    obtain ⟨value, hvalue⟩ := hprovenance item hitem
    exact validateProvenance_again hvalue
  have arrays {α : Type} {items : List α} {write : α → Json} (nonempty : items ≠ []) :
      validateFollowUp.nonEmptyArray (some (.arr (items.map write))) = true := by
    cases items with
    | nil => cases nonempty rfl
    | cons item rest => rfl
  have kind : (Json.asString? (Json.lookup "kind" [("kind", .str "backlog")])).bind (fun kind =>
      (kindField kind).map fun field => (kind, field)) = some ("backlog", some "priority") := rfl
  simp only [BacklogFollowUp.toJson, validateFollowUp, List.cons_append, List.nil_append,
    Json.lookup_cons, String.reduceEq, if_true, if_false, lookup_member] at kind ⊢
  rw [kind]
  simp only [bind_eq_ok, require_eq_ok]
  refine ⟨(), ?_, _, safeText_redacted, (), ?_, (), ?_, _, evidence, (), ?_, _, provenance, ?_⟩
  · simp [exactKeys_member]
  · apply arrays
    simpa [projectBacklogFollowUp] using someEvidence
  · exact arrays someProvenance
  · rfl
  · simp only [String.reduceEq, if_false, bind_eq_ok, pure_eq_ok]
    exact ⟨_, followUpPriority_again _, rfl⟩

end AdCoder.ProjectOperations
