import Mathlib.Data.List.Basic

/-!
# Unified diffs

A unified diff is a list of file sections. A section names the two sides of a
file, has extended header lines and then hunks. The rows of a diff are its lines
as text; a diff is well formed when each row is one line and the hunks of each
section go forward in the old file.
-/

namespace AdCoder.Foundation

/-- The side of a hunk's line: both files, the old one or the new one. -/
inductive LineKind where
  | context
  | removed
  | added
  deriving DecidableEq

def LineKind.sign : LineKind → Char
  | .context => ' '
  | .removed => '-'
  | .added => '+'

/-- A line of a hunk; `unended` when its file stops without a newline here. -/
structure HunkLine where
  kind : LineKind
  text : List Char
  unended : Bool
  deriving DecidableEq

def unendedMarker : List Char := "\\ No newline at end of file".toList

def HunkLine.rows (line : HunkLine) : List (List Char) :=
  (line.kind.sign :: line.text) :: if line.unended then [unendedMarker] else []

/-- A hunk; a line count of one may be left out of its header. -/
structure Hunk where
  oldStart : Nat
  newStart : Nat
  heading : List Char
  lines : List HunkLine
  writesOne : Bool
  deriving DecidableEq

namespace Hunk

variable (hunk : Hunk)

def oldCount : Nat := hunk.lines.countP (·.kind ≠ .added)

def newCount : Nat := hunk.lines.countP (·.kind ≠ .removed)

def range (start count : Nat) : List Char :=
  Nat.toDigits 10 start ++
    if count = 1 ∧ !hunk.writesOne then [] else ',' :: Nat.toDigits 10 count

def header : List Char :=
  "@@ -".toList ++ (hunk.range hunk.oldStart hunk.oldCount ++
    (" +".toList ++ hunk.range hunk.newStart hunk.newCount ++ " @@".toList ++ hunk.heading))

def rows : List (List Char) := hunk.header :: hunk.lines.flatMap HunkLine.rows

end Hunk

/-- What an extended header line begins with. -/
inductive HeaderWord where
  | oldMode | newMode | deletedFileMode | newFileMode | copyFrom | copyTo | renameFrom | renameTo
  | similarityIndex | dissimilarityIndex | index | oldFile | newFile | binaryFiles
  deriving DecidableEq

def HeaderWord.text : HeaderWord → List Char
  | .oldMode => "old mode ".toList
  | .newMode => "new mode ".toList
  | .deletedFileMode => "deleted file mode ".toList
  | .newFileMode => "new file mode ".toList
  | .copyFrom => "copy from ".toList
  | .copyTo => "copy to ".toList
  | .renameFrom => "rename from ".toList
  | .renameTo => "rename to ".toList
  | .similarityIndex => "similarity index ".toList
  | .dissimilarityIndex => "dissimilarity index ".toList
  | .index => "index ".toList
  | .oldFile => "--- ".toList
  | .newFile => "+++ ".toList
  | .binaryFiles => "Binary files ".toList

structure HeaderLine where
  word : HeaderWord
  rest : List Char
  deriving DecidableEq

def HeaderLine.row (line : HeaderLine) : List Char := line.word.text ++ line.rest

/-- A file's path on one side. A path with special characters is written in its
escaped form between double quotes. -/
structure DiffPath where
  path : List Char
  escaped : Option (List Char)
  deriving DecidableEq

/-- The path as a section shows it, below the directory of its side. -/
def DiffPath.shown (side : Char) (file : DiffPath) : List Char :=
  match file.escaped with
  | none => side :: '/' :: file.path
  | some body => '"' :: side :: '/' :: (body ++ ['"'])

structure FileDiff where
  old : DiffPath
  new : DiffPath
  header : List HeaderLine
  hunks : List Hunk
  deriving DecidableEq

namespace FileDiff

variable (file : FileDiff)

def title : List Char :=
  "diff --git ".toList ++ (file.old.shown 'a' ++ ' ' :: file.new.shown 'b')

def rows : List (List Char) :=
  file.title :: (file.header.map HeaderLine.row ++ file.hunks.flatMap Hunk.rows)

/-- Every row is one line, and the hunks go forward in the old file. -/
structure WellFormed : Prop where
  single : ∀ row ∈ file.rows, '\n' ∉ row
  forward : file.hunks.Pairwise fun first second =>
    0 < second.oldCount → first.oldStart + first.oldCount ≤ second.oldStart

end FileDiff

/-- The text of a diff: its rows, with or without a newline after the last one. -/
def WritesDiff (files : List FileDiff) (text : String) : Prop :=
  ∃ closing ∈ [[], ['\n']],
    text.toList = ['\n'].intercalate (files.flatMap FileDiff.rows) ++ closing

/-! ## Removed lines -/

/-- The removed lines of a hunk, with their numbers in the old file. -/
def removedFrom : Nat → List HunkLine → List (Nat × List Char)
  | _, [] => []
  | number, line :: rest =>
      match line.kind with
      | .context => removedFrom (number + 1) rest
      | .removed => (number, line.text) :: removedFrom (number + 1) rest
      | .added => removedFrom number rest

def FileDiff.removed (file : FileDiff) : List (Nat × List Char) :=
  file.hunks.flatMap fun hunk => removedFrom hunk.oldStart hunk.lines

section Removed

variable {number : Nat} {lines : List HunkLine}

/-- Each removed line is one of the old lines that the hunk covers. -/
theorem removedFrom_bounds {entry : Nat × List Char} (member : entry ∈ removedFrom number lines) :
    number ≤ entry.1 ∧ entry.1 < number + lines.countP (·.kind ≠ .added) := by
  induction lines generalizing number with
  | nil => cases member
  | cons line rest ih =>
      rw [removedFrom] at member
      cases kind : line.kind with
      | context =>
          simp only [kind] at member
          have later := ih member
          rw [List.countP_cons_of_pos (by simp [kind])]
          omega
      | removed =>
          simp only [kind] at member
          rw [List.countP_cons_of_pos (by simp [kind])]
          rcases List.mem_cons.mp member with rfl | member
          · constructor
            · exact Nat.le_refl number
            · simp
          · have later := ih member
            omega
      | added =>
          simp only [kind] at member
          rw [List.countP_cons_of_neg (by simp [kind])]
          exact ih member

theorem removedFrom_increases : (removedFrom number lines).Pairwise (·.1 < ·.1) := by
  induction lines generalizing number with
  | nil => exact .nil
  | cons line rest ih =>
      rw [removedFrom]
      cases line.kind with
      | context => exact ih
      | removed =>
          apply List.pairwise_cons.mpr
          constructor
          · intro entry member
            have bounds := removedFrom_bounds member
            exact bounds.1
          · exact ih
      | added => exact ih

/-- The removed lines of a well formed section go forward in the old file. -/
theorem FileDiff.WellFormed.removed_increases {file : FileDiff} (wellFormed : file.WellFormed) :
    file.removed.Pairwise (·.1 < ·.1) := by
  apply List.pairwise_flatMap.mpr
  constructor
  · intro hunk _
    exact removedFrom_increases
  · apply wellFormed.forward.imp
    intro first second forward x earlier y later
    have upper := (removedFrom_bounds earlier).2
    obtain ⟨lower, some⟩ := removedFrom_bounds later
    have order : first.oldStart + first.oldCount ≤ second.oldStart :=
      forward (by unfold Hunk.oldCount; omega)
    unfold Hunk.oldCount at order
    omega

end Removed

end AdCoder.Foundation
