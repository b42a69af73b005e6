import AdCoder.Foundation.JsonTokens
import AdCoder.Foundation.RegexLaws
import AdCoder.Orchestration.AcceptedPlans
import AdCoder.Orchestration.PlanText

/-!
# A plan in prose is recovered

The brace scan agrees with the tokens of JSON, so it finds the text of an object
from its first brace to the one that closes it. What stands between two fences
inside the strings of that text is no plan: reading it takes the marks between
two strings for the text of a string, and no key of a plan is made of marks.
-/

namespace AdCoder.Orchestration

open Foundation Foundation.Regex Foundation.JsonText

/-! ## The brace scan and the tokens -/

section Slices

variable {depth : Int} {body rest : List Char} {tokens : List Token}

theorem balancedSlice_body (valid : Body body) :
    balancedSlice depth true false (body ++ '"' :: rest) =
      (balancedSlice depth false false rest).map (body ++ '"' :: ·) := by
  induction valid with
  | nil => rfl
  | plain quote backslash _ ih =>
      simp only [List.cons_append, balancedSlice, quote, backslash, if_true, if_false,
        Bool.false_eq_true, ih, Option.map_map]
      rfl
  | escape _ ih =>
      simp only [List.cons_append, balancedSlice, if_true, if_false, Bool.false_eq_true, ih,
        Option.map_map]
      rfl

theorem balancedSlice_mark {x : Char} (mark : isMark x = true) (opens : x ≠ '{')
    (closes : x ≠ '}') : balancedSlice depth false false (x :: rest) =
      (balancedSlice depth false false rest).map (x :: ·) := by
  obtain ⟨quote, backslash⟩ := isMark_ne mark
  simp only [balancedSlice, quote, backslash, opens, closes, if_false, Bool.false_eq_true]

/-- Inside an object the scan passes over balanced tokens. -/
theorem balancedSlice_balanced (balanced : Balanced tokens) (inside : 0 < depth) :
    balancedSlice depth false false (charsOf tokens ++ rest) =
      (balancedSlice depth false false rest).map (charsOf tokens ++ ·) := by
  induction balanced generalizing depth rest with
  | nil => simp
  | @token t valid opens closes =>
      cases t with
      | mark x =>
          exact balancedSlice_mark valid (fun same => opens (same ▸ rfl))
            fun same => closes (same ▸ rfl)
      | literal word =>
          have opened : balancedSlice depth false false ('"' :: (word ++ '"' :: rest)) =
              (balancedSlice depth true false (word ++ '"' :: rest)).map ('"' :: ·) := rfl
          rw [charsOf_literal_cons, charsOf_nil, List.cons_append, List.append_assoc,
            List.cons_append, List.nil_append, opened, balancedSlice_body valid, Option.map_map]
          congr 1
          funext more
          simp
  | append _ _ first second =>
      rw [charsOf_append, List.append_assoc, first inside, second inside, Option.map_map]
      congr 1
      funext more
      simp
  | @braces inner _ ih =>
      have opened (more : List Char) : balancedSlice depth false false ('{' :: more) =
          (balancedSlice (depth + 1) false false more).map ('{' :: ·) := rfl
      have closed (more : List Char) : balancedSlice (depth + 1) false false ('}' :: more) =
          (balancedSlice depth false false more).map ('}' :: ·) := by
        have left : depth + 1 - 1 = depth := by omega
        have deeper : depth ≠ 0 := by omega
        simp [balancedSlice, left, deeper]
      rw [List.cons_append, charsOf_mark_cons, charsOf_append, List.cons_append, opened,
        List.append_assoc, ih (by omega), charsOf_mark_cons, charsOf_nil, List.cons_append,
        List.nil_append, closed, Option.map_map, Option.map_map]
      congr 1
      funext more
      simp

/-- The scan of an object ends at the brace that closes it. -/
theorem balancedSlice_object (balanced : Balanced tokens) :
    balancedSlice 0 false false ('{' :: charsOf tokens ++ ['}'] ++ rest) =
      some ('{' :: charsOf tokens ++ ['}']) := by
  have opened (more : List Char) : balancedSlice 0 false false ('{' :: more) =
      (balancedSlice 1 false false more).map ('{' :: ·) := rfl
  have closed (more : List Char) : balancedSlice 1 false false ('}' :: more) = some ['}'] := rfl
  rw [List.append_assoc, List.cons_append, opened, List.singleton_append,
    balancedSlice_balanced balanced (by omega), closed]
  rfl

end Slices

/-! ## Texts between fences -/

/-- The character of which a fence is made. -/
def backtick : Char := '\x60'

section Fences

variable {value found front back text : List Char} {tokens : List Token}

theorem isSpace_ne {x : Char} (space : isSpace x = true) : x ≠ '"' ∧ x ≠ '\\' := by
  constructor
  · rintro rfl
    cases space
  · rintro rfl
    cases space

/-- A fenced text follows a fence and characters that are neither quote nor backslash. -/
theorem mem_fencedTexts (member : found ∈ fencedTexts value) :
    ∃ before gap after, value = before ++ backtick :: (gap ++ found ++ fenceMark.toList ++ after) ∧
      ∀ x ∈ gap, x ≠ '"' ∧ x ≠ '\\' := by
  obtain ⟨before, s, o, m, e, ⟨start, _⟩, opened, _, closed, ⟨inside, _⟩⟩ :=
    mem_captureFrom member
  obtain ⟨fence, mark, rest⟩ := List.mem_flatMap.mp opened
  have plain : (Regex.seq (optional (literal "json")) (.seq spaces .empty)).Within
      fun x => x != '"' && x != '\\' := by
    refine ⟨within_literal (List.all_eq_true.mp (by decide)), ?_, trivial⟩
    intro x space
    rw [Bool.and_eq_true, bne_iff_ne, bne_iff_ne]
    exact isSpace_ne space
  obtain ⟨gap, ⟨between, _⟩, all⟩ := plain.consumes fence o rest
  have fenced := (reaches_literal mark).1
  have finish := (reaches_literal closed).1
  refine ⟨before, [backtick, backtick] ++ gap, e.after, ?_, ?_⟩
  · calc
      value = before ++ s.after := start
      _ = before ++ (fenceMark.toList ++ (gap ++ (found ++ (fenceMark.toList ++ e.after)))) := by
        rw [fenced, between, inside, finish]
      _ = before ++ backtick :: ([backtick, backtick] ++ gap ++ found ++ fenceMark.toList ++
          e.after) := by
        simp [fenceMark, backtick]
  · intro x member
    rcases List.mem_append.mp member with quoted | inside
    · have same : x = backtick := by simpa using quoted
      rw [same]
      decide
    · simpa using all x inside

/-- Where the rest of a text goes on from inside a literal, after its first backtick. -/
theorem inside_after_backtick {before after : List Char} {last : Place}
    (placed : placeAfter .outside (before ++ backtick :: after) = some last) :
    placeAfter .inside after = some last := by
  rw [placeAfter_append] at placed
  obtain ⟨place, _, placed⟩ := Option.bind_eq_some_iff.mp placed
  cases place with
  | outside => cases placed
  | inside => exact placed
  | escaped => exact placed

/-- What stands between two fences in prose around tokens starts inside a literal. -/
theorem fenced_inside (valid : ∀ t ∈ tokens, t.Valid) (ahead : backtick ∉ front)
    (behind : backtick ∉ back) (member : found ∈ fencedTexts (front ++ charsOf tokens ++ back)) :
    ∃ last, placeAfter .inside (trimList found) = some last := by
  obtain ⟨before, gap, after, split, plain⟩ := mem_fencedTexts member
  rw [List.append_assoc] at split
  obtain ⟨lead, -, rest⟩ := split_after_front ahead split
  have marked : charsOf tokens ++ back =
      (lead ++ backtick :: (gap ++ found ++ [backtick, backtick])) ++ backtick :: after := by
    rw [rest]
    simp [fenceMark, backtick]
  obtain ⟨part, -, whole⟩ := split_before_back behind marked
  obtain ⟨space, space', trimmed, blank, -⟩ := trimList_part found
  have placed : placeAfter .outside (lead ++ backtick ::
      (gap ++ (space ++ (trimList found ++ (space' ++ backtick :: backtick :: backtick :: part))))) =
      some .outside := by
    have tokens : placeAfter .outside (charsOf tokens ++ []) = some .outside :=
      placeAfter_tokens valid []
    rw [List.append_nil, whole, trimmed] at tokens
    simpa using tokens
  have solid : ∀ x ∈ space, x ≠ '"' ∧ x ≠ '\\' := fun x inside => isSpace_ne (blank x inside)
  have inside := inside_after_backtick placed
  rw [placeAfter_plain plain, placeAfter_plain solid, placeAfter_append] at inside
  obtain ⟨last, reached, -⟩ := Option.bind_eq_some_iff.mp inside
  exact ⟨last, reached⟩

end Fences

/-! ## The candidates of an object in prose -/

/-- Prose around a plan: no braces and no backticks. -/
def Prose (text : List Char) : Prop := ∀ x ∈ text, x ≠ '{' ∧ x ≠ '}' ∧ x ≠ backtick

instance (text : List Char) : Decidable (Prose text) :=
  List.decidableBAll _ text

section Candidates

variable {front back value candidate : List Char} {candidates found : List (List Char)}
  {tokens : List Token}

/-- The text of an object. -/
def objectChars (tokens : List Token) : List Char := '{' :: charsOf tokens ++ ['}']

theorem mem_addCandidate : value ∈ addCandidate candidates candidate ↔
    value ∈ candidates ∨ value = trimList candidate ∧ value ≠ [] := by
  rw [addCandidate]
  split_ifs with known
  · constructor
    · exact .inl
    · rintro (member | ⟨rfl, some⟩)
      · exact member
      · exact known.resolve_left some
  · rw [not_or] at known
    rw [List.mem_append, List.mem_singleton]
    constructor
    · rintro (member | rfl)
      · exact .inl member
      · exact .inr ⟨rfl, known.1⟩
    · exact Or.imp_right And.left

theorem mem_foldl_addCandidate : value ∈ found.foldl addCandidate candidates ↔
    value ∈ candidates ∨ ∃ text ∈ found, value = trimList text ∧ value ≠ [] := by
  induction found generalizing candidates with
  | nil => simp
  | cons text rest ih =>
      rw [List.foldl_cons, ih, mem_addCandidate]
      simp only [List.mem_cons, exists_eq_or_imp, or_assoc]

theorem objectChars_last : (objectChars tokens).getLast? = some '}' :=
  List.getLast?_concat

theorem trimList_object (front back : List Char) :
    trimList (front ++ objectChars tokens ++ back) =
      front.dropWhile isSpace ++ objectChars tokens ++ trimEnd back :=
  have starts : (objectChars tokens).head? = some '{' := rfl
  trimList_around starts objectChars_last (by decide) (by decide)

theorem trimList_objectChars : trimList (objectChars tokens) = objectChars tokens := by
  have bare : trimList ([] ++ objectChars tokens ++ []) =
      [].dropWhile isSpace ++ objectChars tokens ++ trimEnd [] := trimList_object [] []
  simpa [trimEnd] using bare

theorem indexOfBrace_after {rest : List Char} {start : Nat} (free : '{' ∉ front)
    (le : start ≤ front.length) :
    indexOfBrace (front ++ '{' :: rest) start = some front.length := by
  have none : (front.drop start).findIdx? (· == '{') = none := by
    apply List.findIdx?_eq_none_iff.mpr
    intro x member
    simp only [beq_eq_false_iff_ne]
    rintro rfl
    exact free (List.mem_of_mem_drop member)
  have length : start + (front.length - start) = front.length := by omega
  have first : ('{' :: rest).findIdx? (· == '{') = some 0 := rfl
  rw [indexOfBrace, List.drop_append_of_le_length le, List.findIdx?_append, none, first]
  simp [length]

theorem indexOfBrace_none {start : Nat} (free : '{' ∉ value.drop start) :
    indexOfBrace value start = none := by
  rw [indexOfBrace, Option.map_eq_none_iff, List.findIdx?_eq_none_iff]
  intro x member
  simp only [beq_eq_false_iff_ne]
  rintro rfl
  exact free member

/-- The scan finds the object at the first brace. -/
theorem sliceBalancedObject_prose {start : Nat} (balanced : Balanced tokens) (free : '{' ∉ front)
    (le : start ≤ front.length) :
    sliceBalancedObject (front ++ objectChars tokens ++ back) start = some (objectChars tokens) := by
  have text : front ++ objectChars tokens ++ back =
      front ++ '{' :: (charsOf tokens ++ ['}'] ++ back) := by
    simp [objectChars]
  rw [sliceBalancedObject, text, indexOfBrace_after free le]
  simp only [List.drop_left]
  exact balancedSlice_object balanced

theorem sliceCandidates_prose (balanced : Balanced tokens) (ahead : '{' ∉ front)
    (behind : '{' ∉ back) (fuel : Nat) :
    sliceCandidates (front ++ objectChars tokens ++ back) (fuel + 1) 0 candidates =
      addCandidate candidates (objectChars tokens) := by
  have first : indexOfBrace (front ++ objectChars tokens ++ back) 0 = some front.length := by
    rw [List.append_assoc]
    exact indexOfBrace_after ahead (Nat.zero_le _)
  have past : (front ++ objectChars tokens ++ back).drop
      (front.length + (objectChars tokens).length) = back := by
    rw [← List.length_append, List.drop_left]
  have last : indexOfBrace (front ++ objectChars tokens ++ back)
      (front.length + (objectChars tokens).length) = none :=
    indexOfBrace_none (past.symm ▸ behind)
  simp only [sliceCandidates, first, sliceBalancedObject_prose balanced ahead (Nat.le_refl _)]
  cases fuel with
  | zero => rfl
  | succ fuel => simp only [sliceCandidates, last]

/-- Each candidate is the object or stands between fences. -/
theorem planTextCandidates_prose (balanced : Balanced tokens) (ahead : Prose front)
    (behind : Prose back) (value_eq : value = front ++ objectChars tokens ++ back) :
    objectChars tokens ∈ planTextCandidates value ∧
      ∀ candidate ∈ planTextCandidates value, candidate = objectChars tokens ∨
        ∃ text ∈ fencedTexts value, candidate = trimList text := by
  have none : '{' ∉ front := fun member => (ahead _ member).1 rfl
  have none' : '{' ∉ back := fun member => (behind _ member).1 rfl
  have slices (candidates : List (List Char)) :
      sliceCandidates value (value.length + 1) 0 candidates =
        addCandidate candidates (objectChars tokens) := by
    rw [value_eq]
    exact sliceCandidates_prose balanced none none' _
  have whole : value.head? = some '{' ∧ value.getLast? = some '}' →
      value = objectChars tokens := by
    rintro ⟨starts, ends⟩
    obtain rfl : front = [] := by
      cases front with
      | nil => rfl
      | cons x rest =>
          have first : x = '{' := by simpa [value_eq] using starts
          exact absurd (first ▸ List.mem_cons_self) none
    obtain rfl : back = [] := by
      rcases back.eq_nil_or_concat with rfl | ⟨rest, x, rfl⟩
      · rfl
      · have last : x = '}' := by
          rw [value_eq, List.concat_eq_append, ← List.append_assoc, List.getLast?_concat] at ends
          exact Option.some.inj ends
        exact absurd last (behind x (by simp)).2.1
    rw [value_eq, List.nil_append, List.append_nil]
  rw [planTextCandidates, slices]
  constructor
  · exact mem_addCandidate.mpr (.inr ⟨trimList_objectChars.symm, by simp [objectChars]⟩)
  · intro candidate member
    rcases mem_addCandidate.mp member with member | ⟨same, -⟩
    · rcases mem_foldl_addCandidate.mp member with member | ⟨text, found, same, -⟩
      · split_ifs at member with shape
        · rcases mem_addCandidate.mp member with member | ⟨same, -⟩
          · cases member
          · rw [same, whole shape, trimList_objectChars]
            exact .inl rfl
        · cases member
      · exact .inr ⟨text, found, same⟩
    · exact .inl (same.trans trimList_objectChars)

end Candidates

/-! ## What the loop makes of the candidates -/

section Attempts

variable {format : NumberFormat} {detail : String} {limits : SurfaceAnalysisLimits}
  {candidate : List Char} {plan : Plan}

/-- A candidate that adds no plan. -/
def Refused (format : NumberFormat) (detail : String) (limits : SurfaceAnalysisLimits)
    (candidate : List Char) : Prop :=
  ∀ attempts, ∃ errors, attemptCandidate format detail limits attempts candidate =
    .ok { attempts with errors := errors }

/-- An object without `complexity`, and any other value, is refused and measured by nothing. -/
theorem parsePlan_unshaped {bounds : SurfaceAnalysisBounds} {decoded : Json}
    (limited : validateLimits limits = .ok bounds)
    (unshaped : ∀ fields, decoded = .obj fields → "complexity" ∉ fields.map (·.1)) :
    ∃ error, parsePlan format decoded detail limits = .error (.orchestration error) := by
  cases decoded with
  | obj fields =>
      have none := Json.lookup_eq_none (unshaped fields rfl)
      simp only [parsePlan, limited, none]
      exact ⟨_, rfl⟩
  | _ =>
      simp only [parsePlan, limited]
      exact ⟨_, rfl⟩

/-- A text that starts inside a literal of another text is refused. -/
theorem refused_of_inside {bounds : SurfaceAnalysisBounds} {last : Place}
    (limited : validateLimits limits = .ok bounds)
    (inside : placeAfter .inside candidate = some last) :
    Refused format detail limits candidate := by
  intro attempts
  rw [attemptCandidate]
  cases read : parse format candidate with
  | none => exact ⟨_, rfl⟩
  | some decoded =>
      have unshaped : ∀ fields, decoded = .obj fields → "complexity" ∉ fields.map (·.1) := by
        rintro fields rfl member
        have mark := marks_of_keys read inside "complexity" member 'c' (by decide)
        exact absurd mark (by decide)
      obtain ⟨error, refused⟩ : ∃ error,
          parsePlan format decoded detail limits = .error (.orchestration error) :=
        parsePlan_unshaped limited unshaped
      simp only [refused]
      exact ⟨_, rfl⟩

/-- The loop over candidates of which one gives the plan and the others are refused. -/
theorem foldlM_attempts {core : List Char} {candidates : List (List Char)}
    (accepted : ∀ attempts, attemptCandidate format detail limits attempts core =
      .ok { attempts with plans := attempts.plans ++ [plan] })
    (others : ∀ candidate ∈ candidates, candidate = core ∨ Refused format detail limits candidate)
    (attempts : PlanAttempts) :
    ∃ last, candidates.foldlM (attemptCandidate format detail limits) attempts = .ok last ∧
      (∀ p ∈ last.plans, p ∈ attempts.plans ∨ p = plan) ∧ attempts.plans ⊆ last.plans ∧
      (core ∈ candidates → plan ∈ last.plans) := by
  induction candidates generalizing attempts with
  | nil => exact ⟨attempts, rfl, fun _ => .inl, List.Subset.refl _, by simp⟩
  | cons candidate rest ih =>
      have later := ih fun other member => others other (List.mem_cons_of_mem candidate member)
      rw [List.foldlM_cons]
      by_cases same : candidate = core
      · obtain ⟨last, run, only, kept, _⟩ :=
          later { attempts with plans := attempts.plans ++ [plan] }
        rw [same, accepted]
        refine ⟨last, run, ?_, ?_, ?_⟩
        · intro p member
          rcases only p member with before | same
          · simpa using before
          · exact .inr same
        · exact List.Subset.trans (List.subset_append_left _ _) kept
        · intro _
          exact kept (by simp)
      · obtain ⟨errors, refused⟩ :=
          (others candidate List.mem_cons_self).resolve_left same attempts
        obtain ⟨last, run, only, kept, found⟩ := later { attempts with errors := errors }
        rw [refused]
        refine ⟨last, run, only, kept, ?_⟩
        intro member
        exact found ((List.mem_cons.mp member).resolve_left (Ne.symm same))

theorem distinctPlans_seen {seen : List String} {plans : List Plan}
    (all : ∀ p ∈ plans, planKey format p ∈ seen) : distinctPlans format seen plans = [] := by
  induction plans with
  | nil => rfl
  | cons p rest ih =>
      rw [distinctPlans, if_pos (all p List.mem_cons_self)]
      exact ih fun q member => all q (List.mem_cons_of_mem p member)

/-- Copies of one plan are one submission. -/
theorem distinctPlans_single {plans : List Plan} (only : ∀ p ∈ plans, p = plan)
    (member : plan ∈ plans) : distinctPlans format [] plans = [plan] := by
  cases plans with
  | nil => cases member
  | cons p rest =>
      obtain rfl := only p List.mem_cons_self
      rw [distinctPlans, if_neg List.not_mem_nil, distinctPlans_seen]
      intro q later
      rw [only q (List.mem_cons_of_mem p later)]
      exact List.mem_cons_self

end Attempts

/-- A JSON text of an object that has no white space around it. -/
theorem bare_object {format : NumberFormat} {fields : List (String × Json)} {text : List Char}
    (json : parse format text = some (.obj fields)) (opens : text.head? = some '{')
    (closes : text.getLast? = some '}') : ∃ tokens, text = objectChars tokens ∧ Balanced tokens := by
  obtain ⟨front, tokens, back, split, ahead, behind, balanced⟩ := parse_object json
  refine ⟨tokens, ?_, balanced⟩
  obtain rfl : front = [] := by
    cases front with
    | nil => rfl
    | cons x rest =>
        obtain rfl : x = '{' := by simpa [split] using opens
        exact absurd (ahead '{' List.mem_cons_self) (by decide)
  obtain rfl : back = [] := by
    rcases back.eq_nil_or_concat with rfl | ⟨rest, x, rfl⟩
    · rfl
    · obtain rfl : x = '}' := by
        rw [split, List.concat_eq_append, ← List.append_assoc, List.getLast?_concat] at closes
        exact Option.some.inj closes
      exact absurd (behind '}' (by simp)) (by decide)
  rw [split, List.nil_append, List.append_nil]
  rfl

/-- A plan's JSON text in prose: the scan finds it and the plan is recovered. -/
theorem parsePlanText_prose (format : NumberFormat) (detail : String)
    (limits : SurfaceAnalysisLimits) (value : Json) (plan : Plan) (text before after : List Char)
    (accepted : parsePlan format value detail limits = .ok plan)
    (json : parse format text = some value) (opens : text.head? = some '{')
    (closes : text.getLast? = some '}') (ahead : Prose before) (behind : Prose after) :
    sliceBalancedObject (before ++ text ++ after) 0 = some text ∧
      parsePlanText format detail limits (String.ofList (before ++ text ++ after)) =
        .ok (some plan) := by
  obtain ⟨bounds, submitted, limited, found, -⟩ := parsePlan_eq_ok accepted
  obtain ⟨fields, rfl⟩ : ∃ fields, value = .obj fields := by
    cases value with
    | obj fields => exact ⟨fields, rfl⟩
    | _ => cases found
  obtain ⟨tokens, rfl, balanced⟩ := bare_object json opens closes
  constructor
  · exact sliceBalancedObject_prose balanced (fun member => (ahead _ member).1 rfl) (Nat.zero_le _)
  have trimmed : trimList (before ++ objectChars tokens ++ after) =
      before.dropWhile isSpace ++ objectChars tokens ++ trimEnd after := trimList_object before after
  have front : Prose (before.dropWhile isSpace) :=
    fun x member => ahead x ((List.dropWhile_sublist _).subset member)
  have back : Prose (trimEnd after) := fun x member => behind x (mem_of_mem_trimEnd member)
  obtain ⟨listed, candidates⟩ := planTextCandidates_prose balanced front back trimmed
  have whole : charsOf (.mark '{' :: tokens ++ [.mark '}']) = objectChars tokens := by
    simp [objectChars]
  have others : ∀ candidate ∈ planTextCandidates (trimList (before ++ objectChars tokens ++ after)),
      candidate = objectChars tokens ∨ Refused format detail limits candidate := by
    intro candidate member
    rcases candidates candidate member with same | ⟨fenced, inside, rfl⟩
    · exact .inl same
    · right
      rw [trimmed, ← whole] at inside
      obtain ⟨last, placed⟩ := fenced_inside (Balanced.braces balanced).valid
        (fun member => (front _ member).2.2 rfl) (fun member => (back _ member).2.2 rfl) inside
      exact refused_of_inside limited placed
  have gives : ∀ attempts, attemptCandidate format detail limits attempts (objectChars tokens) =
      .ok { attempts with plans := attempts.plans ++ [plan] } := by
    intro attempts
    simp only [attemptCandidate, json, accepted]
  obtain ⟨last, run, only, -, member⟩ := foldlM_attempts gives others ⟨[], []⟩
  have single : distinctPlans format [] last.plans = [plan] :=
    distinctPlans_single (fun p inside => (only p inside).resolve_left List.not_mem_nil)
      (member listed)
  have some : planTextCandidates (trimList (before ++ objectChars tokens ++ after)) ≠ [] :=
    List.ne_nil_of_mem listed
  simp only [parsePlanText, String.toList_ofList, if_neg some, run, Except.bind, bind, single]

/-- A plan whose summary holds fences, braces, a quote and a backslash. -/
def fencedSummary : List Char := [
  "\x7b\"complexity\":\"medium\",\n", "\"securitySurface\":\"low\",", "\"summary\":",
  "\"```json \x7b\\\"\x7d``` \\\\ ```\",", "\"surfaceAnalysis\": ", "\x7b\"projectType\":\"p\",",
  "\"surfaces\":[\x7b\"id\":\"a\",", "\"name\":\"n\",", "\"rationale\":\"r\"\x7d],",
  "\"coverage\":[\x7b\"surfaceId\":", "\"a\",\"status\":\"covered\",", "\"rationale\":\"r\",",
  "\"contractIds\":[\"config:", "configurable\"],", "\"evidence\":[\"e\"]\x7d]\x7d\x7d"].flatMap
    String.toList

theorem parsePlanText_prose_fenced :
    let text := "Say \"plan\": ".toList ++ fencedSummary ++ " done.".toList
    sliceBalancedObject text 0 = some fencedSummary ∧
      parsePlanText noNumerals "d" defaultSurfaceAnalysisLimits (String.ofList text) =
        .ok (some { acceptedPlan "config:configurable" with
          summary := "```json \x7b\"\x7d``` \\ ```" }) := by
  have read : (parse noNumerals fencedSummary).isSome = true := by decide +kernel
  obtain ⟨value, json⟩ := Option.isSome_iff_exists.mp read
  have accepted : ((parse noNumerals fencedSummary).map fun value =>
      parsePlan noNumerals value "d" defaultSurfaceAnalysisLimits) =
        some (.ok { acceptedPlan "config:configurable" with
          summary := "```json \x7b\"\x7d``` \\ ```" }) := by
    decide +kernel
  rw [json] at accepted
  exact parsePlanText_prose noNumerals "d" defaultSurfaceAnalysisLimits value _ fencedSummary
    "Say \"plan\": ".toList " done.".toList (Option.some.inj accepted) json (by decide +kernel)
    (by decide +kernel) (by decide +kernel) (by decide +kernel)

end AdCoder.Orchestration
