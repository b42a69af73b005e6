import AdCoder.Foundation.Diffs
import AdCoder.Orchestration.TrivialEdit
import Mathlib.Data.List.TakeWhile

/-!
# Breadth and the lines that change

The breadth of an edit counts the lines of its texts. A text that is empty or
ends with a newline is not charged for the line it ends in, which the edit may
change all the same.
-/

namespace AdCoder.Orchestration

open Foundation

/-! ## The lines of a file -/

/-- The lines of a text; one newline at its end is a terminator. -/
def fileLines : List Char → List (List Char)
  | [] => []
  | c :: cs =>
      if c = '\n' then [] :: fileLines cs
      else match fileLines cs with
        | [] => [[c]]
        | line :: rest => (c :: line) :: rest

/-- The added and removed lines of a minimal difference of two contents. -/
def changedLines (before after : String) : Nat :=
  diff (fileLines before.toList) (fileLines after.toList)

section FileLines

variable {text : List Char}

theorem fileLines_eq_nil : fileLines text = [] ↔ text = [] := by
  cases text with
  | nil => simp [fileLines]
  | cons c cs =>
      simp only [fileLines]
      split_ifs
      · simp
      · split <;> simp

/-- A text that stops between two lines is followed by lines of its own. -/
theorem fileLines_append (whole : text.getLast?.all (· = '\n') = true) (rest : List Char) :
    fileLines (text ++ rest) = fileLines text ++ fileLines rest := by
  induction text with
  | nil => rfl
  | cons c cs ih =>
      cases cs with
      | nil =>
          obtain rfl : c = '\n' := by simpa using whole
          simp [fileLines]
      | cons d ds =>
          have more := ih (by simpa [List.getLast?_cons_cons] using whole)
          have some : fileLines (d :: ds) ≠ [] := by simp [fileLines_eq_nil]
          rw [List.cons_append, fileLines, fileLines, more]
          split_ifs
          · rfl
          · obtain ⟨line, lines, shape⟩ := List.exists_cons_of_ne_nil some
            simp [shape]

/-- Each newline ends a line, and what follows the last one is a line too. -/
theorem length_fileLines : (fileLines text).length =
    text.count '\n' + if text.getLast?.all (· = '\n') then 0 else 1 := by
  induction text with
  | nil => rfl
  | cons c cs ih =>
      cases cs with
      | nil => by_cases newline : c = '\n' <;> simp [fileLines, newline]
      | cons d ds =>
          have some : fileLines (d :: ds) ≠ [] := by simp [fileLines_eq_nil]
          rw [List.getLast?_cons_cons]
          by_cases newline : c = '\n'
          · subst newline
            rw [fileLines, if_pos rfl, List.length_cons, ih, List.count_cons_self]
            omega
          · obtain ⟨line, lines, shape⟩ := List.exists_cons_of_ne_nil some
            rw [fileLines, if_neg newline, List.count_cons_of_ne newline, ← ih, shape]
            rfl

/-- The code counts the lines of a text. -/
theorem countLines_eq (text : String) : countLines text = (fileLines text.toList).length := by
  rw [length_fileLines, countLines]
  generalize text.toList = chars
  rcases List.eq_nil_or_concat chars with rfl | ⟨init, last, rfl⟩
  · rfl
  · by_cases newline : last = '\n' <;> simp [newline]

end FileLines

/-! ## The lines that an edit touches -/

/-- An edit where it is applied: between what stands before the occurrence and after it. -/
structure PlacedEdit where
  before : String
  edit : EditReplacement
  after : String

/-- The part of a line that stands before an occurrence. -/
def lineStart (before : List Char) : List Char :=
  (before.reverse.takeWhile (· != '\n')).reverse

/-- The part of a line that stands after an occurrence, with the newline that ends it. -/
def lineEnd (after : List Char) : List Char :=
  after.takeWhile (· != '\n') ++ (after.dropWhile (· != '\n')).take 1

namespace PlacedEdit

variable (placed : PlacedEdit)

/-- The content with a text in the place of the occurrence. -/
def contentWith (text : String) : String := placed.before ++ text ++ placed.after

/-- The lines that a text in the place of the occurrence stands in. -/
def linesWith (text : String) : List (List Char) :=
  fileLines (lineStart placed.before.toList ++ text.toList ++ lineEnd placed.after.toList)

/-- The lines that the edit touches are no more than those it is charged, or it keeps one. -/
def Charged : Prop :=
  (placed.linesWith placed.edit.oldText).length + (placed.linesWith placed.edit.newText).length ≤
      countLines placed.edit.newText + countLines placed.edit.oldText ∨
    ∃ line ∈ placed.linesWith placed.edit.oldText, line ∈ placed.linesWith placed.edit.newText

end PlacedEdit

/-- One occurrence of the edit's old text is replaced by its new text. -/
def Replaces (content : String) (placed : PlacedEdit) (next : String) : Prop :=
  content = placed.contentWith placed.edit.oldText ∧
    next = placed.contentWith placed.edit.newText

section Touched

variable {placed : PlacedEdit}

theorem lineStart_spec (before : List Char) :
    ∃ whole, before = whole ++ lineStart before ∧ whole.getLast?.all (· = '\n') = true ∧
      '\n' ∉ lineStart before := by
  refine ⟨(before.reverse.dropWhile (· != '\n')).reverse, ?_, ?_, ?_⟩
  · rw [lineStart, ← List.reverse_append, List.takeWhile_append_dropWhile, List.reverse_reverse]
  · rw [List.getLast?_reverse]
    have first := List.head?_dropWhile_not (· != '\n') before.reverse
    revert first
    cases (before.reverse.dropWhile (· != '\n')).head? <;> simp
  · intro newline
    have kept := List.mem_takeWhile_imp (List.mem_reverse.mp newline)
    simp at kept

theorem lineEnd_spec (after : List Char) :
    ∃ start rest, after = lineEnd after ++ rest ∧ '\n' ∉ start ∧
      (lineEnd after = start ++ ['\n'] ∨ lineEnd after = start ∧ rest = []) := by
  refine ⟨after.takeWhile (· != '\n'), (after.dropWhile (· != '\n')).drop 1, ?_, ?_, ?_⟩
  · rw [lineEnd, List.append_assoc, List.take_append_drop, List.takeWhile_append_dropWhile]
  · intro newline
    have kept := List.mem_takeWhile_imp newline
    simp at kept
  · have first := List.head?_dropWhile_not (· != '\n') after
    rw [lineEnd]
    revert first
    cases after.dropWhile (· != '\n') with
    | nil => simp
    | cons c cs => simp

/-- The other lines of the content are the same around every text. -/
theorem fileLines_contentWith (placed : PlacedEdit) : ∃ above below, ∀ text,
    fileLines (placed.contentWith text).toList = above ++ placed.linesWith text ++ below := by
  obtain ⟨whole, before, stops, -⟩ := lineStart_spec placed.before.toList
  obtain ⟨start, rest, after, -, ends⟩ := lineEnd_spec placed.after.toList
  refine ⟨fileLines whole, fileLines rest, fun text => ?_⟩
  have content : (placed.contentWith text).toList = whole ++
      (lineStart placed.before.toList ++ text.toList ++ lineEnd placed.after.toList ++ rest) := by
    rw [PlacedEdit.contentWith, String.toList_append, String.toList_append]
    conv_lhs => rw [before, after]
    simp only [List.append_assoc]
  rw [content, fileLines_append stops, PlacedEdit.linesWith, List.append_assoc (fileLines whole)]
  congr 1
  rcases ends with ended | ⟨-, rfl⟩
  · refine fileLines_append ?_ rest
    rw [ended, ← List.append_assoc, List.getLast?_concat]
    rfl
  · rw [fileLines, List.append_nil, List.append_nil]

/-- A text stands in one line more than it is charged at most. -/
theorem length_linesWith (placed : PlacedEdit) (text : String) :
    (placed.linesWith text).length ≤ countLines text + 1 := by
  obtain ⟨-, -, -, before⟩ := lineStart_spec placed.before.toList
  obtain ⟨start, rest, -, after, ends⟩ := lineEnd_spec placed.after.toList
  have charged : text.toList.count '\n' ≤ countLines text := by
    rw [countLines_eq, length_fileLines]
    omega
  rw [PlacedEdit.linesWith, length_fileLines, List.count_append, List.count_append,
    List.count_eq_zero_of_not_mem before]
  rcases ends with ended | ⟨ended, -⟩
  · rw [ended, ← List.append_assoc, List.getLast?_concat, List.count_append,
      List.count_eq_zero_of_not_mem after]
    simpa using charged
  · rw [ended, List.count_eq_zero_of_not_mem after]
    split_ifs <;> omega

/-- The lines that an edit changes are among those that it touches. -/
theorem changedLines_edit : changedLines (placed.contentWith placed.edit.oldText)
      (placed.contentWith placed.edit.newText) =
    diff (placed.linesWith placed.edit.oldText) (placed.linesWith placed.edit.newText) := by
  obtain ⟨above, below, lines⟩ := fileLines_contentWith placed
  rw [changedLines, lines, lines, diff_append_right, diff_append_left]

/-- One edit changes no more lines than it is charged exactly when it is charged for those it
touches. -/
theorem changedLines_le_iff : changedLines (placed.contentWith placed.edit.oldText)
      (placed.contentWith placed.edit.newText) ≤
    countLines placed.edit.newText + countLines placed.edit.oldText ↔ placed.Charged := by
  have old := length_linesWith placed placed.edit.oldText
  have new := length_linesWith placed placed.edit.newText
  rw [changedLines_edit, PlacedEdit.Charged]
  constructor
  · intro few
    by_cases shared : ∃ line ∈ placed.linesWith placed.edit.oldText,
        line ∈ placed.linesWith placed.edit.newText
    · exact .inr shared
    · rw [diff_of_disjoint fun line before after => shared ⟨line, before, after⟩] at few
      exact .inl few
  · rintro (few | ⟨line, before, after⟩)
    · exact diff_le_length.trans few
    · have kept := diff_of_common before after
      omega

end Touched

/-! ## Breadth -/

theorem changedLines_triangle {a b c : String} :
    changedLines a c ≤ changedLines a b + changedLines b c := diff_triangle

/-- The lines of a patch, added and removed. -/
def TrivialEditPatchShape.lines (shape : TrivialEditPatchShape) : Nat :=
  shape.linesAdded + shape.linesRemoved

theorem lines_measureEditPatch_concat (edits : List EditReplacement) (edit : EditReplacement) :
    (measureEditPatch (edits ++ [edit])).lines = (measureEditPatch edits).lines +
      (countLines edit.newText + countLines edit.oldText) := by
  simp only [TrivialEditPatchShape.lines, measureEditPatch, List.map_append, List.sum_append,
    List.map_singleton, List.sum_singleton]
  omega

/-- Edits that are charged for the lines they touch change no more lines than they are charged
together. -/
theorem changedLines_le_edits {content after : String} {edits : List PlacedEdit}
    (run : Run (Guarded Replaces fun _ placed => placed.Charged) content edits after) :
    changedLines content after ≤ (measureEditPatch (edits.map (·.edit))).lines := by
  induction run with
  | refl => simp [changedLines]
  | tail _ last ih =>
      obtain ⟨charged, rfl, rfl⟩ := last
      have one := changedLines_le_iff.mpr charged
      rw [List.map_append, List.map_singleton, lines_measureEditPatch_concat]
      exact changedLines_triangle.trans (Nat.add_le_add ih one)

theorem changedLines_le_write (oldContent : Option String) (newContent : String) :
    changedLines (oldContent.getD "") newContent ≤
      (measureWritePatch oldContent newContent).lines := by
  rw [TrivialEditPatchShape.lines, measureWritePatch, countLines_eq, changedLines]
  cases oldContent with
  | none => exact diff_le_length.trans (by simp [fileLines])
  | some content =>
      have all := @diff_le_length _ _ (fileLines content.toList) (fileLines newContent.toList)
      simp only [Option.getD_some, Option.map_some, countLines_eq]
      omega

/-- The measured breadth bounds the lines that change: for edits that are charged for the lines
they touch, for one edit exactly then, and for every write. -/
theorem breadth_bounds_changes (content : String) :
    (∀ (after : String) (edits : List PlacedEdit),
      Run (Guarded Replaces fun _ placed => placed.Charged) content edits after →
        changedLines content after ≤ (measureEditPatch (edits.map (·.edit))).lines) ∧
    (∀ (after : String) (placed : PlacedEdit), Replaces content placed after →
      (changedLines content after ≤ (measureEditPatch [placed.edit]).lines ↔ placed.Charged)) ∧
    ∀ (oldContent : Option String) (newContent : String),
      changedLines (oldContent.getD "") newContent ≤
        (measureWritePatch oldContent newContent).lines := by
  refine ⟨fun _ _ run => changedLines_le_edits run, ?_, changedLines_le_write⟩
  rintro _ placed ⟨rfl, rfl⟩
  have one := lines_measureEditPatch_concat [] placed.edit
  rw [List.nil_append] at one
  rw [one]
  simpa [TrivialEditPatchShape.lines, measureEditPatch] using changedLines_le_iff

/-- A word in one line is replaced by one with a line break. -/
theorem breadth_bounds_changes_split :
    changedLines "ab\nc" "ax\nyb\nc" ≤ (measureEditPatch [⟨"b", "x\nyb"⟩]).lines := by
  let placed : PlacedEdit := ⟨"a", ⟨"b", "x\nyb"⟩, "\nc"⟩
  have replaced : Replaces "ab\nc" placed "ax\nyb\nc" := by
    constructor <;> decide +kernel
  have charged : placed.Charged := .inl (by decide +kernel)
  exact (breadth_bounds_changes _).1 _ [placed] (.single ⟨charged, replaced⟩)

/-- A letter is deleted from a line: one line is charged, and one is removed and one added. -/
theorem breadth_bounds_changes_refuted :
    ¬ ∀ (content after : String) (edits : List PlacedEdit), Run Replaces content edits after →
      changedLines content after ≤ (measureEditPatch (edits.map (·.edit))).lines := by
  intro claimed
  let placed : PlacedEdit := ⟨"a", ⟨"x", ""⟩, "b"⟩
  have replaced : Replaces "axb" placed "ab" := by
    constructor <;> decide +kernel
  have few := claimed _ _ [placed] (.single replaced)
  revert few
  decide +kernel

end AdCoder.Orchestration
