import AdCoder.Foundation.Lists
import AdCoder.Orchestration.RemovedTests

/-!
# Which removed test lines the inventory holds

Over a well formed diff the inventory holds the removed lines of the test files
exactly when the scan reads each section under its own path, no removed line
reads like a `---` header, and no two sections remove one line of a test file.
-/

namespace AdCoder.Orchestration

open Foundation

/-! ## What the inventory is for -/

/-- One entry for each removed nonblank line of a test file. -/
def removedTests (file : FileDiff) : List RemovedTestInventoryEntry :=
  if testPath file.old.path then
    (file.removed.filter nonBlank).map (removedEntry file.old.path)
  else []

/-- The inventory of a diff, and of each leading part of its sections, is complete
and its ids are unique. -/
def InventoryComplete (files : List FileDiff) : Prop :=
  ∀ leading, leading <+: files → ∀ text, WritesDiff leading text →
    inventoryRemovedTests text = leading.flatMap removedTests ∧
      ((inventoryRemovedTests text).map (·.removedTestId)).Nodup

/-! ## When the scan meets it -/

/-- The removed nonblank lines of a test file are read under its path and none is
dashed; those of another file are read under no test path or are dashed. -/
def ReadUnder (shown : List Char) (file : FileDiff) : Prop :=
  ∀ line ∈ file.removed, nonBlank line = true →
    if testPath file.old.path then shown = file.old.path ∧ dashed line = false
    else testPath shown = true → dashed line = true

/-- Every section is read so, under the path that the scan holds there. -/
def ReadApart : List Char → List FileDiff → Prop
  | _, [] => True
  | previous, file :: rest =>
      ReadUnder (shownPath previous file) file ∧ ReadApart (shownPath previous file) rest

/-- No two sections remove one nonblank line of a test file. -/
def RemovedOnce (files : List FileDiff) : Prop :=
  files.Pairwise fun first second => testPath first.old.path = true →
    first.old.path = second.old.path → ∀ x ∈ first.removed, nonBlank x = true →
      ∀ y ∈ second.removed, nonBlank y = true → x.1 ≠ y.1

section Sections

variable {shown previous : List Char} {file : FileDiff} {files : List FileDiff}

theorem removedEntry_path {path other : List Char} {x y : Nat × List Char}
    (same : removedEntry path x = removedEntry other y) : path = other :=
  String.ofList_injective (congrArg RemovedTestInventoryEntry.path same)

/-- Under a test path the entries are right when the path is and no line is dashed. -/
theorem map_removedEntry_eq_iff {path : List Char} {removed : List (Nat × List Char)} :
    (removed.filter fun line => nonBlank line && !dashed line).map (removedEntry shown) =
        (removed.filter nonBlank).map (removedEntry path) ↔
      ∀ line ∈ removed, nonBlank line = true → shown = path ∧ dashed line = false := by
  have filtered : (removed.filter fun line => nonBlank line && !dashed line) =
      (removed.filter nonBlank).filter fun line => !dashed line := by
    rw [List.filter_filter]
    congr 1
    funext line
    exact Bool.and_comm _ _
  constructor
  · intro same line member text
    have kept : line ∈ removed.filter nonBlank := List.mem_filter.mpr ⟨member, text⟩
    have lengths := congrArg List.length same
    rw [filtered, List.length_map, List.length_map, List.length_filter_eq_length_iff] at lengths
    constructor
    · obtain ⟨other, _, entry⟩ := List.mem_map.mp (same ▸ List.mem_map_of_mem kept)
      exact removedEntry_path entry
    · have plain := lengths line kept
      simpa using plain
  · intro all
    have plain : ∀ line ∈ removed.filter nonBlank, (!dashed line) = true := by
      intro line kept
      obtain ⟨member, text⟩ := List.mem_filter.mp kept
      rw [(all line member text).2]
      rfl
    rw [filtered, List.filter_eq_self.mpr plain]
    apply List.map_congr_left
    intro line kept
    obtain ⟨member, text⟩ := List.mem_filter.mp kept
    rw [(all line member text).1]

theorem recorded_eq_iff : recorded shown file.removed = removedTests file ↔
    ReadUnder shown file := by
  unfold recorded removedTests ReadUnder
  cases own : testPath file.old.path with
  | false =>
      cases other : testPath shown with
      | false => simp
      | true => simp
  | true =>
      have apart : testPath shown = false → shown ≠ file.old.path := by
        intro other same
        rw [same, own] at other
        cases other
      cases other : testPath shown with
      | false => simp [apart other]
      | true => simpa using map_removedEntry_eq_iff

/-- The scan is right on every leading part exactly when it is right on each section. -/
theorem recordedFrom_eq_iff : (∀ leading, leading <+: files →
    recordedFrom previous leading = leading.flatMap removedTests) ↔ ReadApart previous files := by
  induction files generalizing previous with
  | nil =>
      constructor
      · intro _
        trivial
      · intro _ leading part
        rw [List.prefix_nil.mp part]
        rfl
  | cons file rest ih =>
      rw [ReadApart, ← recorded_eq_iff, ← ih]
      constructor
      · intro all
        have first : recorded (shownPath previous file) file.removed = removedTests file := by
          have single := all [file] (List.prefix_append [file] rest)
          simpa [recordedFrom] using single
        refine ⟨first, ?_⟩
        intro leading part
        have longer := all (file :: leading) (List.cons_prefix_cons.mpr ⟨rfl, part⟩)
        rw [recordedFrom, List.flatMap_cons, first] at longer
        exact List.append_cancel_left longer
      · rintro ⟨first, later⟩ leading part
        cases leading with
        | nil => rfl
        | cons head tail =>
            obtain ⟨rfl, shorter⟩ := List.cons_prefix_cons.mp part
            rw [recordedFrom, List.flatMap_cons, first, later tail shorter]

end Sections

/-! ## Unique ids -/

/-- Two texts agree on both sides of their last separator. -/
theorem separated_inj {separator : Char} {left right first second : List Char}
    (fresh : separator ∉ first) (fresh' : separator ∉ second)
    (same : left ++ separator :: first = right ++ separator :: second) :
    left = right ∧ first = second := by
  have joined : (left ++ [separator]) ++ first = right ++ separator :: second := by
    rw [List.append_assoc]
    exact same
  obtain ⟨part, rfl, cut⟩ := split_before_back fresh joined
  rcases split_concat cut with ⟨rfl, rfl, -⟩ | ⟨rest, rfl, -⟩
  · exact ⟨rfl, rfl⟩
  · exact absurd (by simp) fresh'

theorem removedTestId_inj {path other : List Char} {x y : Nat × List Char} :
    (removedEntry path x).removedTestId = (removedEntry other y).removedTestId ↔
      path = other ∧ x.1 = y.1 := by
  have noColon (n : Nat) : ':' ∉ Nat.toDigits 10 n := by
    intro colon
    have digit := Nat.isDigit_of_mem_toDigits (by decide) (by decide) colon
    cases digit
  constructor
  · intro same
    have lists : path ++ ':' :: Nat.toDigits 10 x.1 = other ++ ':' :: Nat.toDigits 10 y.1 := by
      simpa [removedEntry, Nat.toString_eq_repr] using congrArg String.toList same
    obtain ⟨paths, digits⟩ := separated_inj (noColon x.1) (noColon y.1) lists
    have numbers := congrArg (Nat.ofDigitChars 10 · 0) digits
    simp only [Nat.ofDigitChars_ten_toDigits] at numbers
    exact ⟨paths, numbers⟩
  · rintro ⟨rfl, number⟩
    simp only [removedEntry, number]

section Unique

variable {file : FileDiff} {files : List FileDiff}

theorem removedTests_ids_nodup (wellFormed : file.WellFormed) :
    ((removedTests file).map (·.removedTestId)).Nodup := by
  unfold removedTests
  split_ifs
  · rw [List.map_map]
    apply List.Pairwise.map
    · intro x y before same
      have numbers := (removedTestId_inj.mp same).2
      exact absurd numbers (Nat.ne_of_lt before)
    · exact wellFormed.removed_increases.filter _
  · exact List.nodup_nil

theorem mem_removedTests {entry : RemovedTestInventoryEntry} :
    entry ∈ removedTests file ↔ testPath file.old.path = true ∧
      ∃ x ∈ file.removed, nonBlank x = true ∧ removedEntry file.old.path x = entry := by
  unfold removedTests
  split_ifs with test
  · simp [test, and_assoc]
  · simp [test]

/-- The ids of all sections are unique when no line is removed twice. -/
theorem ids_nodup_iff (wellFormed : ∀ file ∈ files, file.WellFormed) :
    ((files.flatMap removedTests).map (·.removedTestId)).Nodup ↔ RemovedOnce files := by
  rw [List.map_flatMap, List.nodup_flatMap]
  have each : ∀ file ∈ files, ((removedTests file).map (·.removedTestId)).Nodup :=
    fun file member => removedTests_ids_nodup (wellFormed file member)
  rw [and_iff_right each]
  apply List.Pairwise.iff
  intro first second
  constructor
  · intro disjoint test same x removed text y removed' text' number
    have mine : removedEntry first.old.path x ∈ removedTests first :=
      mem_removedTests.mpr ⟨test, x, removed, text, rfl⟩
    have other : removedEntry second.old.path y ∈ removedTests second :=
      mem_removedTests.mpr ⟨same ▸ test, y, removed', text', rfl⟩
    have id := removedTestId_inj.mpr ⟨same, number⟩
    exact disjoint (List.mem_map_of_mem mine) (id ▸ List.mem_map_of_mem other)
  · intro apart id mine other
    obtain ⟨entry, member, rfl⟩ := List.mem_map.mp mine
    obtain ⟨entry', member', id⟩ := List.mem_map.mp other
    obtain ⟨test, x, removed, text, rfl⟩ := mem_removedTests.mp member
    obtain ⟨-, y, removed', text', rfl⟩ := mem_removedTests.mp member'
    obtain ⟨same, number⟩ := removedTestId_inj.mp id
    exact apart test same.symm x removed text y removed' text' number.symm

end Unique

/-! ## The inventory -/

/-- The inventory is complete with unique ids, section by section, exactly when each
section is read under its own path and no line is removed twice. -/
theorem inventory_complete_iff (files : List FileDiff)
    (wellFormed : ∀ file ∈ files, file.WellFormed) :
    InventoryComplete files ↔ ReadApart [] files ∧ RemovedOnce files := by
  have recorded {leading : List FileDiff} (part : leading <+: files) {text : String}
      (written : WritesDiff leading text) : inventoryRemovedTests text = recordedFrom [] leading :=
    inventoryRemovedTests_text (fun file member => (wellFormed file (part.subset member)).single)
      written
  have writable (leading : List FileDiff) : ∃ text, WritesDiff leading text :=
    ⟨String.ofList (['\n'].intercalate (leading.flatMap FileDiff.rows)), [], by simp, by simp⟩
  rw [← recordedFrom_eq_iff]
  constructor
  · intro complete
    constructor
    · intro leading part
      obtain ⟨text, written⟩ := writable leading
      rw [← recorded part written]
      exact (complete leading part text written).1
    · obtain ⟨text, written⟩ := writable files
      obtain ⟨entries, ids⟩ := complete files List.prefix_rfl text written
      rw [entries] at ids
      exact (ids_nodup_iff wellFormed).mp ids
  · rintro ⟨apart, once⟩ leading part text written
    have entries : inventoryRemovedTests text = leading.flatMap removedTests := by
      rw [recorded part written]
      exact apart leading part
    constructor
    · exact entries
    · rw [entries]
      apply (ids_nodup_iff fun file member => wellFormed file (part.subset member)).mpr
      exact List.Pairwise.sublist part.sublist once

/-- A diff of a file whose path is the same on both sides. -/
def editOf (path : String) (hunks : List Hunk) : FileDiff where
  old := ⟨path.toList, none⟩
  new := ⟨path.toList, none⟩
  header := [⟨.oldFile, ("a/" ++ path).toList⟩, ⟨.newFile, ("b/" ++ path).toList⟩]
  hunks := hunks

/-- An assertion goes from a test file, and a decrement from another one. -/
def assertionRemoved : List FileDiff := [
  editOf "test/example.test.ts" [⟨7, 7, [],
    [⟨.removed, "expect(result).toBe(1);".toList, false⟩, ⟨.context, "context".toList, false⟩],
    false⟩],
  editOf "src/count.ts" [⟨3, 2, [], [⟨.removed, "--count;".toList, true⟩], false⟩]]

theorem inventory_complete_iff_assertion :
    (∀ file ∈ assertionRemoved, file.WellFormed) ∧
      (InventoryComplete assertionRemoved ↔
        ReadApart [] assertionRemoved ∧ RemovedOnce assertionRemoved) := by
  have wellFormed : ∀ file ∈ assertionRemoved, file.WellFormed := by
    intro file member
    rcases List.mem_pair.mp member with rfl | rfl
    · constructor
      · decide +kernel
      · exact List.pairwise_singleton _ _
    · constructor
      · decide +kernel
      · exact List.pairwise_singleton _ _
  exact ⟨wellFormed, inventory_complete_iff assertionRemoved wellFormed⟩

/-- A decrement goes from a test file. -/
def decrementRemoved : List FileDiff := [
  editOf "test/example.test.ts" [⟨3, 2, [], [⟨.removed, "--count;".toList, false⟩], false⟩]]

theorem inventory_complete_refuted :
    (∀ file ∈ decrementRemoved, file.WellFormed) ∧ ¬InventoryComplete decrementRemoved := by
  constructor
  · intro file member
    rw [List.mem_singleton.mp member]
    constructor
    · decide +kernel
    · exact List.pairwise_singleton _ _
  · intro complete
    have entries := (complete decrementRemoved List.prefix_rfl
      (String.ofList (['\n'].intercalate (decrementRemoved.flatMap FileDiff.rows)))
      ⟨[], by simp, by simp⟩).1
    have skipped : inventoryRemovedTests (String.ofList
        (['\n'].intercalate (decrementRemoved.flatMap FileDiff.rows))) ≠
        decrementRemoved.flatMap removedTests := by
      decide +kernel
    exact skipped entries

end AdCoder.Orchestration
