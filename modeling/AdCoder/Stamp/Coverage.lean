import AdCoder.Foundation.Json

/-!
# The covered paths of a review stamp

A stamp answers for the tracked paths that its patterns cover. The patterns of a
project are declared in its marker, and they ride on the line of a stamp.
-/

namespace AdCoder.Stamp

open Foundation

/-- The two declarations of a marker. -/
inductive CoverageKey where
  | coverage
  | coverageAdd
  deriving DecidableEq

/-- `STAMPS_MARKER_FIELD`. -/
def stampsMarkerField : String := "ad-coder.stamps.json coverage"

/-- The check of one pattern. -/
def patternError : Json → Option String
  | .str entry =>
      if entry = "" then some (stampsMarkerField ++ ": coverage patterns must be non-empty strings")
      else if entry.toList.any Regex.isSpace then
        some (stampsMarkerField ++ ": coverage patterns cannot contain whitespace")
      else if entry.toList.contains ',' then
        some (stampsMarkerField ++ ": coverage patterns cannot contain a comma " ++
          "(patterns are comma-joined onto the stamp line)")
      else none
  | _ => some (stampsMarkerField ++ ": coverage patterns must be non-empty strings")

def coverageValidationError (raw : List Json) (key : CoverageKey) : Option String :=
  if key = .coverage ∧ raw.isEmpty then
    some (stampsMarkerField ++ ": replacement coverage cannot be empty -- " ++
      "a stamp over nothing covered can never go stale")
  else raw.findSome? patternError

/-- Text that may be a pattern: it has characters, but no blank and no comma. -/
def PatternText (entry : List Char) : Prop :=
  entry ≠ [] ∧ ∀ x ∈ entry, Regex.isSpace x = false ∧ x ≠ ','

theorem patternError_str {entry : String} :
    patternError (.str entry) = none ↔ PatternText entry.toList := by
  rw [patternError, PatternText, ne_eq, String.toList_eq_nil_iff]
  split_ifs with empty blank comma
  · simp [empty]
  · obtain ⟨x, member, space⟩ := List.any_eq_true.mp blank
    simp only [false_iff]
    rintro ⟨-, plain⟩
    rw [(plain x member).1] at space
    cases space
  · simp only [false_iff]
    rintro ⟨-, plain⟩
    exact (plain ',' (List.contains_iff_mem.mp comma)).2 rfl
  · simp only [true_iff]
    refine ⟨empty, fun x member => ⟨?_, ?_⟩⟩
    · rw [Bool.eq_false_iff]
      exact fun space => blank (List.any_eq_true.mpr ⟨x, member, space⟩)
    · rintro rfl
      exact comma (List.contains_iff_mem.mpr member)

/-- A list of strings that is accepted under some key has patterns only. -/
theorem patternText_of_accepted {patterns : List String} {key : CoverageKey}
    (accepted : coverageValidationError (patterns.map .str) key = none) {entry : String}
    (member : entry ∈ patterns) : PatternText entry.toList := by
  rw [coverageValidationError] at accepted
  split_ifs at accepted
  exact patternError_str.mp
    (List.findSome?_eq_none_iff.mp accepted _ (List.mem_map_of_mem member))

end AdCoder.Stamp
