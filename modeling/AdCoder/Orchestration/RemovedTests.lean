import AdCoder.Foundation.UnifiedDiffs
import AdCoder.Orchestration.Types

/-!
# The inventory of removed test lines

`inventoryRemovedTests` reads a unified diff line by line. It keeps the path of
the last `diff --git a/` line and a line number that each hunk header sets. Over
a whole diff it records, section by section, what the section removes under the
path it holds there, less the lines that read like a `---` header.
-/

namespace AdCoder.Orchestration

open Foundation Foundation.Regex

/-! ## The scan -/

/-- `/(?:^|\/)test(?:\/|[^/]*\.test\.)[^/]*\.(?:ts|tsx|js|jsx)$/` -/
def testPattern : Regex := sequence [
  choice [atStart, literal "/"], literal "test",
  choice [literal "/", .seq (star (.one (· != '/'))) (literal ".test.")],
  star (.one (· != '/')), literal ".",
  choice [literal "ts", literal "tsx", literal "js", literal "jsx"], atEnd]

/-- A path that the test pattern accepts. -/
def testPath (path : List Char) : Bool := testPattern.test (String.ofList path)

/-- `text.startsWith(search)`. -/
def opensWith (search : String) (text : List Char) : Bool := search.toList.isPrefixOf text

/-- `text.split(separator)[0]`. -/
def beforeFirst (separator : List Char) : List Char → List Char
  | [] => []
  | c :: cs => if separator.isPrefixOf (c :: cs) then [] else c :: beforeFirst separator cs

/-- `line.match(/^@@ -(\d+)/)`, with the number in the group. -/
def hunkStart (line : List Char) : Option Nat :=
  if opensWith "@@ -" line then
    match (line.drop 4).takeWhile isDigit with
    | [] => none
    | digits => some (Nat.ofDigitChars 10 digits 0)
  else none

/-- The variables of the loop. -/
structure InventoryScan where
  entries : List RemovedTestInventoryEntry
  path : List Char
  oldLine : Nat

/-- What the loop records of a removed line. -/
def removedEntry (path : List Char) (removed : Nat × List Char) : RemovedTestInventoryEntry where
  removedTestId := String.ofList path ++ ":" ++ toString removed.1
  path := String.ofList path
  line := removed.1
  text := String.ofList removed.2

def inventoryLine (scan : InventoryScan) (line : List Char) : InventoryScan :=
  if opensWith "diff --git a/" line then
    { scan with path := beforeFirst " b/".toList (line.drop 13) }
  else match hunkStart line with
    | some start => { scan with oldLine := start }
    | none =>
        if opensWith "-" line && !opensWith "---" line && testPath scan.path then
          let text := line.drop 1
          { scan with
            entries := if trimList text ≠ [] then
                scan.entries ++ [removedEntry scan.path (scan.oldLine, text)]
              else scan.entries
            oldLine := scan.oldLine + 1 }
        else if !opensWith "+" line then
          if line ≠ [] ∧ !opensWith "\\" line then { scan with oldLine := scan.oldLine + 1 }
          else scan
        else scan

def inventoryRemovedTests (diff : String) : List RemovedTestInventoryEntry :=
  ((diff.toList.splitOn '\n').foldl inventoryLine ⟨[], [], 0⟩).entries

/-! ## What the scan makes of each section -/

def nonBlank (removed : Nat × List Char) : Bool := trimList removed.2 ≠ []

/-- A removed line that reads `---` with its sign. -/
def dashed (removed : Nat × List Char) : Bool := opensWith "--" removed.2

/-- The path that the scan holds in a section. -/
def shownPath (previous : List Char) (file : FileDiff) : List Char :=
  match file.old.escaped with
  | none => beforeFirst " b/".toList (file.old.path ++ ' ' :: file.new.shown 'b')
  | some _ => previous

/-- The entries that the scan records of removed lines under a path. -/
def recorded (path : List Char) (removed : List (Nat × List Char)) :
    List RemovedTestInventoryEntry :=
  if testPath path then
    (removed.filter fun line => nonBlank line && !dashed line).map (removedEntry path)
  else []

/-- The entries that the scan records of a diff. -/
def recordedFrom : List Char → List FileDiff → List RemovedTestInventoryEntry
  | _, [] => []
  | previous, file :: rest =>
      recorded (shownPath previous file) file.removed ++ recordedFrom (shownPath previous file) rest

section Rows

variable (scan : InventoryScan) {path : List Char}

theorem recorded_nil : recorded path [] = [] := by
  unfold recorded
  split_ifs
  · rfl
  · rfl

theorem recorded_append (first second : List (Nat × List Char)) :
    recorded path (first ++ second) = recorded path first ++ recorded path second := by
  unfold recorded
  split_ifs
  · simp
  · rfl

theorem inventoryLine_context (text : List Char) :
    inventoryLine scan (' ' :: text) = { scan with oldLine := scan.oldLine + 1 } := by
  rfl

theorem inventoryLine_added (text : List Char) : inventoryLine scan ('+' :: text) = scan := by
  rfl

theorem inventoryLine_marker : inventoryLine scan unendedMarker = scan := by
  rfl

theorem inventoryLine_removed (text : List Char) :
    inventoryLine scan ('-' :: text) =
      { scan with
        entries := scan.entries ++ recorded scan.path [(scan.oldLine, text)]
        oldLine := scan.oldLine + 1 } := by
  have title : opensWith "diff --git a/" ('-' :: text) = false := rfl
  have hunk : hunkStart ('-' :: text) = none := rfl
  have sign : opensWith "-" ('-' :: text) = true := rfl
  have heading : opensWith "---" ('-' :: text) = dashed (scan.oldLine, text) := rfl
  have plus : opensWith "+" ('-' :: text) = false := rfl
  have marker : opensWith "\\" ('-' :: text) = false := rfl
  simp only [inventoryLine, title, hunk, sign, heading, plus, marker, recorded]
  cases test : testPath scan.path with
  | false => simp
  | true =>
      cases long : dashed (scan.oldLine, text) with
      | true => simp [long]
      | false => by_cases blank : trimList text = [] <;> simp [long, nonBlank, blank]

/-- A line of a hunk with its marker counts if it is old and is recorded if it is removed. -/
theorem foldl_rows (line : HunkLine) :
    line.rows.foldl inventoryLine scan =
      { scan with
        entries := scan.entries ++ recorded scan.path (removedFrom scan.oldLine [line])
        oldLine := scan.oldLine + if line.kind = .added then 0 else 1 } := by
  obtain ⟨kind, text, unended⟩ := line
  have marked (next : InventoryScan) :
      (if unended then [unendedMarker] else []).foldl inventoryLine next = next := by
    cases unended with
    | false => rfl
    | true => exact inventoryLine_marker next
  rw [HunkLine.rows, List.foldl_cons, marked]
  cases kind with
  | context => simp [LineKind.sign, inventoryLine_context, removedFrom, recorded_nil]
  | removed => simp [LineKind.sign, inventoryLine_removed, removedFrom]
  | added => simp [LineKind.sign, inventoryLine_added, removedFrom, recorded_nil]

theorem foldl_lines (lines : List HunkLine) :
    (lines.flatMap HunkLine.rows).foldl inventoryLine scan =
      { scan with
        entries := scan.entries ++ recorded scan.path (removedFrom scan.oldLine lines)
        oldLine := scan.oldLine + lines.countP (·.kind ≠ .added) } := by
  induction lines generalizing scan with
  | nil => simp [removedFrom, recorded_nil]
  | cons line rest ih =>
      rw [List.flatMap_cons, List.foldl_append, foldl_rows, ih]
      cases kind : line.kind with
      | context => simp [removedFrom, kind, recorded_nil, Nat.add_assoc, Nat.add_comm]
      | removed =>
          have split : recorded scan.path
              ((scan.oldLine, line.text) :: removedFrom (scan.oldLine + 1) rest) =
              recorded scan.path [(scan.oldLine, line.text)] ++
                recorded scan.path (removedFrom (scan.oldLine + 1) rest) :=
            recorded_append [(scan.oldLine, line.text)] _
          simp [removedFrom, kind, split, Nat.add_assoc, Nat.add_comm]
      | added => simp [removedFrom, kind, recorded_nil]

/-- The number of a hunk header ends at its count or at the new range. -/
theorem range_tail (hunk : Hunk) (start count : Nat) (rest : List Char) :
    ∃ c more, hunk.range start count ++ ' ' :: rest = Nat.toDigits 10 start ++ c :: more ∧
      isDigit c = false := by
  unfold Hunk.range
  split_ifs
  · exact ⟨' ', rest, by rw [List.append_nil], rfl⟩
  · exact ⟨',', _, by rw [List.append_assoc, List.cons_append], rfl⟩

theorem hunkStart_header (hunk : Hunk) : hunkStart hunk.header = some hunk.oldStart := by
  obtain ⟨c, more, start, stop⟩ := range_tail hunk hunk.oldStart hunk.oldCount
    ('+' :: hunk.range hunk.newStart hunk.newCount ++ " @@".toList ++ hunk.heading)
  have digits : (Nat.toDigits 10 hunk.oldStart ++ c :: more).takeWhile isDigit =
      Nat.toDigits 10 hunk.oldStart := by
    rw [List.takeWhile_append_of_pos, List.takeWhile_cons_of_neg (by simp [stop]), List.append_nil]
    intro digit member
    have bounds := Nat.isDigit_of_mem_toDigits (by decide) (by decide) member
    simpa [Char.isDigit, isDigit, Char.le_def] using bounds
  have opens : opensWith "@@ -" hunk.header = true := rfl
  have kept : hunk.header.drop 4 = Nat.toDigits 10 hunk.oldStart ++ c :: more := by
    rw [← start]
    rfl
  rw [hunkStart, opens, if_pos rfl, kept, digits]
  split
  · next none => exact absurd none Nat.toDigits_ne_nil
  · rw [Nat.ofDigitChars_ten_toDigits]

theorem foldl_hunk (hunk : Hunk) :
    hunk.rows.foldl inventoryLine scan =
      { scan with
        entries := scan.entries ++ recorded scan.path (removedFrom hunk.oldStart hunk.lines)
        oldLine := hunk.oldStart + hunk.oldCount } := by
  have title : opensWith "diff --git a/" hunk.header = false := rfl
  have header : inventoryLine scan hunk.header = { scan with oldLine := hunk.oldStart } := by
    simp only [inventoryLine, title, hunkStart_header, Bool.false_eq_true, if_false]
  rw [Hunk.rows, List.foldl_cons, header, foldl_lines]
  rfl

/-- An extended header line moves at most the counter. -/
theorem inventoryLine_header (line : HeaderLine) :
    ∃ n, inventoryLine scan line.row = { scan with oldLine := n } := by
  obtain ⟨word, rest⟩ := line
  cases word with
  | newFile => exact ⟨scan.oldLine, rfl⟩
  | _ => exact ⟨scan.oldLine + 1, rfl⟩

theorem foldl_headers (lines : List HeaderLine) :
    ∃ n, (lines.map HeaderLine.row).foldl inventoryLine scan = { scan with oldLine := n } := by
  induction lines generalizing scan with
  | nil => exact ⟨scan.oldLine, rfl⟩
  | cons line rest ih =>
      obtain ⟨n, moved⟩ := inventoryLine_header scan line
      rw [List.map_cons, List.foldl_cons, moved]
      exact ih { scan with oldLine := n }

theorem foldl_hunks (hunks : List Hunk) :
    ∃ n, (hunks.flatMap Hunk.rows).foldl inventoryLine scan =
      { scan with
        entries := scan.entries ++ recorded scan.path
          (hunks.flatMap fun hunk => removedFrom hunk.oldStart hunk.lines)
        oldLine := n } := by
  induction hunks generalizing scan with
  | nil => exact ⟨scan.oldLine, by simp [recorded_nil]⟩
  | cons hunk rest ih =>
      rw [List.flatMap_cons, List.foldl_append, foldl_hunk]
      obtain ⟨n, later⟩ := ih { scan with
        entries := scan.entries ++ recorded scan.path (removedFrom hunk.oldStart hunk.lines)
        oldLine := hunk.oldStart + hunk.oldCount }
      exact ⟨n, by rw [later, List.flatMap_cons, recorded_append, List.append_assoc]⟩

theorem inventoryLine_plain (rest : List Char) :
    inventoryLine scan ("diff --git a/".toList ++ rest) =
      { scan with path := beforeFirst " b/".toList rest } := by
  have opens : opensWith "diff --git a/" ("diff --git a/".toList ++ rest) = true := rfl
  have kept : ("diff --git a/".toList ++ rest).drop 13 = rest := rfl
  rw [inventoryLine, if_pos opens, kept]

theorem inventoryLine_quoted (rest : List Char) :
    inventoryLine scan ("diff --git \"".toList ++ rest) =
      { scan with oldLine := scan.oldLine + 1 } := by
  rfl

/-- The line that opens a section shows the old path or leaves the one before. -/
theorem inventoryLine_title (file : FileDiff) :
    ∃ n, inventoryLine scan file.title =
      { scan with path := shownPath scan.path file, oldLine := n } := by
  obtain ⟨⟨path, escaped⟩, new, header, hunks⟩ := file
  cases escaped with
  | none =>
      have opened := inventoryLine_plain scan (path ++ ' ' :: new.shown 'b')
      exact ⟨scan.oldLine, opened⟩
  | some body =>
      have opened := inventoryLine_quoted scan
        ('a' :: '/' :: (body ++ ['"']) ++ ' ' :: new.shown 'b')
      exact ⟨scan.oldLine + 1, opened⟩

theorem foldl_file (file : FileDiff) :
    ∃ n, file.rows.foldl inventoryLine scan =
      { entries := scan.entries ++ recorded (shownPath scan.path file) file.removed
        path := shownPath scan.path file
        oldLine := n } := by
  obtain ⟨opened, title⟩ := inventoryLine_title scan file
  obtain ⟨headed, header⟩ := foldl_headers
    { scan with path := shownPath scan.path file, oldLine := opened } file.header
  obtain ⟨n, body⟩ := foldl_hunks
    { scan with path := shownPath scan.path file, oldLine := headed } file.hunks
  exact ⟨n, by rw [FileDiff.rows, List.foldl_cons, title, List.foldl_append, header, body]; rfl⟩

theorem foldl_files (files : List FileDiff) :
    ((files.flatMap FileDiff.rows).foldl inventoryLine scan).entries =
      scan.entries ++ recordedFrom scan.path files := by
  induction files generalizing scan with
  | nil => simp [recordedFrom]
  | cons file rest ih =>
      obtain ⟨n, read⟩ := foldl_file scan file
      rw [List.flatMap_cons, List.foldl_append, read, ih, recordedFrom, List.append_assoc]

end Rows

/-- An empty line changes nothing. -/
theorem foldl_blank {scan : InventoryScan} {lines : List (List Char)}
    (blank : ∀ line ∈ lines, line = []) : lines.foldl inventoryLine scan = scan := by
  induction lines with
  | nil => rfl
  | cons line rest ih =>
      obtain rfl := blank line List.mem_cons_self
      exact ih fun line later => blank line (List.mem_cons_of_mem _ later)

/-- A text of rows splits into them and empty lines after the last one. -/
theorem splitOn_rows {rows : List (List Char)} {closing : List Char}
    (single : ∀ row ∈ rows, '\n' ∉ row) (ending : closing ∈ [[], ['\n']]) :
    ∃ blank, (∀ line ∈ blank, line = []) ∧
      (['\n'].intercalate rows ++ closing).splitOn '\n' = rows ++ blank := by
  have body : ∃ blank, (∀ line ∈ blank, line = []) ∧
      (['\n'].intercalate rows).splitOn '\n' = rows ++ blank := by
    by_cases none : rows = []
    · exact ⟨[[]], by simp, by rw [none]; rfl⟩
    · exact ⟨[], by simp, by rw [List.splitOn_intercalate '\n' single none, List.append_nil]⟩
  obtain ⟨blank, empty, split⟩ := body
  rcases List.mem_pair.mp ending with rfl | rfl
  · exact ⟨blank, empty, by rw [List.append_nil, split]⟩
  · refine ⟨blank ++ [[]], ?_, ?_⟩
    · intro line member
      rcases List.mem_append.mp member with earlier | last
      · exact empty line earlier
      · exact List.mem_singleton.mp last
    · rw [List.splitOn_append_cons_self, split, List.append_assoc]
      rfl

/-- The scan of a diff's text records the sections one after the other. -/
theorem inventoryRemovedTests_text {files : List FileDiff} {text : String}
    (single : ∀ file ∈ files, ∀ row ∈ file.rows, '\n' ∉ row) (written : WritesDiff files text) :
    inventoryRemovedTests text = recordedFrom [] files := by
  have rows : ∀ row ∈ files.flatMap FileDiff.rows, '\n' ∉ row := by
    intro row member
    obtain ⟨file, inside, member⟩ := List.mem_flatMap.mp member
    exact single file inside row member
  obtain ⟨closing, ending, written⟩ := written
  obtain ⟨blank, empty, lines⟩ := splitOn_rows rows ending
  rw [inventoryRemovedTests, written, lines, List.foldl_append, foldl_blank empty, foldl_files]
  rfl

end AdCoder.Orchestration
