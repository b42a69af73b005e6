import AdCoder.Foundation.Lists

/-!
# The dirty paths of a preflight

The status of a repository is read as records that all end in NUL. A record of a
rename or of a copy has the path it came from as one more record, which is read
like any other. Texts are sequences of UTF-16 code units, by which `slice` cuts.
-/

namespace AdCoder.ProjectOperations

open Foundation

/-- The code units of a string. -/
abbrev Units := List UInt16

/-- The code unit of a character of the basic plane. -/
def unitOf (x : Char) : UInt16 := x.toNat.toUInt16

/-- The paths of `RepositoryPublishingPreflight.dirty`. -/
structure Dirty (Text : Type) where
  staged : List Text
  unstaged : List Text
  untracked : List Text
  deriving DecidableEq

/-- One record of the loop of `parseStatus`. -/
def Dirty.push (dirty : Dirty Units) (record : Units) : Dirty Units :=
  let code := record.take 2
  let file := record.drop 3
  if code = [unitOf '?', unitOf '?'] then { dirty with untracked := dirty.untracked ++ [file] }
  else
    { dirty with
      staged := if code[0]? ≠ some (unitOf ' ') then dirty.staged ++ [file] else dirty.staged
      unstaged := if code[1]? ≠ some (unitOf ' ') then dirty.unstaged ++ [file]
        else dirty.unstaged }

def parseStatus (raw : Units) : Dirty Units :=
  ((raw.splitOn 0).filter (· ≠ [])).foldl Dirty.push ⟨[], [], []⟩

/-! ## Entries and their rendering -/

/-- The letters of a short status. -/
inductive StatusLetter where
  | unmodified
  | modified
  | typeChanged
  | added
  | deleted
  | renamed
  | copied
  | unmerged
  | untracked
  | ignored
  deriving DecidableEq

def StatusLetter.unit : StatusLetter → UInt16
  | unmodified => unitOf ' '
  | modified => unitOf 'M'
  | typeChanged => unitOf 'T'
  | added => unitOf 'A'
  | deleted => unitOf 'D'
  | renamed => unitOf 'R'
  | copied => unitOf 'C'
  | unmerged => unitOf 'U'
  | untracked => unitOf '?'
  | ignored => unitOf '!'

/-- A letter of an entry that carries its source. -/
def StatusLetter.moves (letter : StatusLetter) : Bool := letter = renamed || letter = copied

/-- One entry of a status. No path has a NUL; the source of an entry that moves nothing is not
rendered. -/
structure StatusEntry where
  index : StatusLetter
  worktree : StatusLetter
  path : Units
  source : Units
  path_plain : 0 ∉ path
  source_plain : 0 ∉ source

namespace StatusEntry

def moves (entry : StatusEntry) : Bool := entry.index.moves || entry.worktree.moves

/-- The letters, a blank and the path. -/
def record (entry : StatusEntry) : Units :=
  entry.index.unit :: entry.worktree.unit :: unitOf ' ' :: entry.path

/-- The fields of an entry: a rename or a copy has its source as one more. -/
def fields (entry : StatusEntry) : List Units :=
  if entry.moves then [entry.record, entry.source] else [entry.record]

/-- An entry that is new to the repository. -/
def isUntracked (entry : StatusEntry) : Bool :=
  entry.index = .untracked && entry.worktree = .untracked

end StatusEntry

/-- The porcelain rendering of a status: every field ends in NUL. -/
def renderStatus (entries : List StatusEntry) : Units :=
  (entries.flatMap StatusEntry.fields).flatMap (· ++ [0])

/-- The paths of the entries themselves. -/
def dirtyOf (entries : List StatusEntry) : Dirty Units where
  staged := (entries.filter fun entry =>
    !entry.isUntracked && entry.index ≠ .unmodified).map (·.path)
  unstaged := (entries.filter fun entry =>
    !entry.isUntracked && entry.worktree ≠ .unmodified).map (·.path)
  untracked := (entries.filter (·.isUntracked)).map (·.path)

/-! ## What one record adds -/

/-- The paths that a record adds. -/
def added (record : Units) : Dirty Units := Dirty.push ⟨[], [], []⟩ record

namespace Dirty

variable {Text : Type}

def append (first second : Dirty Text) : Dirty Text :=
  ⟨first.staged ++ second.staged, first.unstaged ++ second.unstaged,
    first.untracked ++ second.untracked⟩

/-- The number of paths. -/
def size (dirty : Dirty Text) : Nat :=
  dirty.staged.length + dirty.unstaged.length + dirty.untracked.length

@[simp] theorem size_append (first second : Dirty Text) :
    (first.append second).size = first.size + second.size := by
  simp only [size, append, List.length_append]
  omega

theorem append_assoc (first second third : Dirty Text) :
    (first.append second).append third = first.append (second.append third) := by
  simp only [append, List.append_assoc]

@[simp] theorem append_empty (dirty : Dirty Text) : dirty.append ⟨[], [], []⟩ = dirty := by
  simp only [append, List.append_nil]

@[simp] theorem empty_append (dirty : Dirty Text) : append ⟨[], [], []⟩ dirty = dirty := rfl

theorem append_left_cancel {first second third : Dirty Text}
    (same : first.append second = first.append third) : second = third := by
  obtain ⟨staged, unstaged, untracked⟩ := second
  obtain ⟨staged', unstaged', untracked'⟩ := third
  simpa [append] using same

theorem eq_empty {dirty : Dirty Text} (none : dirty.size = 0) : dirty = ⟨[], [], []⟩ := by
  obtain ⟨staged, unstaged, untracked⟩ := dirty
  simp only [size, Nat.add_eq_zero_iff, List.length_eq_zero_iff] at none
  obtain ⟨⟨rfl, rfl⟩, rfl⟩ := none
  rfl

theorem push_eq_append (dirty : Dirty Units) (record : Units) :
    dirty.push record = dirty.append (added record) := by
  simp only [added, push, append]
  split_ifs <;> simp

/-- The records are read one after the other. -/
theorem foldl_push (records : List Units) (dirty : Dirty Units) :
    records.foldl push dirty = dirty.append (records.foldl push ⟨[], [], []⟩) := by
  induction records generalizing dirty with
  | nil => simp
  | cons record rest ih =>
      rw [List.foldl_cons, List.foldl_cons, ih (dirty.push record), ih (push _ record),
        push_eq_append dirty, push_eq_append ⟨[], [], []⟩, empty_append, append_assoc]

end Dirty

theorem dirtyOf_cons (entry : StatusEntry) (rest : List StatusEntry) :
    dirtyOf (entry :: rest) = (dirtyOf [entry]).append (dirtyOf rest) := by
  simp only [dirtyOf, Dirty.append, ← List.map_append, ← List.filter_append, List.singleton_append]

theorem unit_injective : Function.Injective StatusLetter.unit := by
  intro letter other
  cases letter <;> cases other <;> decide

/-- The record of an entry adds the entry. -/
theorem added_record (entry : StatusEntry) : added entry.record = dirtyOf [entry] := by
  have letter (found other : StatusLetter) : found.unit = other.unit ↔ found = other :=
    unit_injective.eq_iff
  have untracked : unitOf '?' = StatusLetter.untracked.unit := rfl
  have unmodified : unitOf ' ' = StatusLetter.unmodified.unit := rfl
  simp only [added, Dirty.push, StatusEntry.record, List.take_succ_cons, List.take_zero,
    List.drop_succ_cons, List.drop_zero, List.cons.injEq, and_true, untracked, letter,
    List.getElem?_cons_zero, List.getElem?_cons_succ, Option.some.injEq, ne_eq, unmodified,
    List.nil_append]
  by_cases new : entry.index = .untracked ∧ entry.worktree = .untracked
  · simp [new, dirtyOf, StatusEntry.isUntracked]
  · have old : entry.isUntracked = false := by
      simpa [StatusEntry.isUntracked] using new
    by_cases index : entry.index = .unmodified
    · by_cases worktree : entry.worktree = .unmodified <;>
        simp [dirtyOf, old, index, worktree]
    · by_cases worktree : entry.worktree = .unmodified <;>
        simp [new, dirtyOf, old, index, worktree]

/-! ## Sources -/

/-- A text that reads as a record of no path: it has no characters or starts with two blanks. -/
def ReadsAsNothing (source : Units) : Prop :=
  source = [] ∨ [unitOf ' ', unitOf ' '] <+: source

theorem size_added_letters (x y : UInt16) (rest : Units) : (added (x :: y :: rest)).size =
    if x = unitOf '?' ∧ y = unitOf '?' then 1
    else (if x = unitOf ' ' then 0 else 1) + if y = unitOf ' ' then 0 else 1 := by
  simp only [added, Dirty.push, List.take_succ_cons, List.take_zero, List.cons.injEq, and_true,
    List.getElem?_cons_zero, List.getElem?_cons_succ, Option.some.injEq, ne_eq, ite_not]
  split_ifs <;> rfl

theorem size_added_eq_zero {record : Units} :
    (added record).size = 0 ↔ [unitOf ' ', unitOf ' '] <+: record := by
  have other : ¬ (unitOf ' ' = unitOf '?' ∧ unitOf ' ' = unitOf '?') := by decide
  constructor
  · intro none
    cases record with
    | nil => simp [added, Dirty.push, Dirty.size] at none
    | cons x rest =>
        cases rest with
        | nil => simp [added, Dirty.push, Dirty.size] at none
        | cons y rest =>
            rw [size_added_letters] at none
            split_ifs at none with new first second
            · rw [first, second]
              exact ⟨rest, rfl⟩
            all_goals omega
  · rintro ⟨rest, rfl⟩
    rw [List.cons_append, List.cons_append, size_added_letters, if_neg other, if_pos rfl]

/-- The fields that are read as records. -/
def recordsOf (fields : List Units) : Dirty Units :=
  (fields.filter (· ≠ [])).foldl Dirty.push ⟨[], [], []⟩

theorem recordsOf_append (fields more : List Units) :
    recordsOf (fields ++ more) = (recordsOf fields).append (recordsOf more) := by
  rw [recordsOf, List.filter_append, List.foldl_append, Dirty.foldl_push]
  rfl

theorem recordsOf_record (entry : StatusEntry) : recordsOf [entry.record] = dirtyOf [entry] := by
  rw [← added_record]
  rfl

theorem recordsOf_source {source : Units} :
    (recordsOf [source]).size = 0 ↔ ReadsAsNothing source := by
  by_cases empty : source = []
  · simp [recordsOf, empty, ReadsAsNothing, Dirty.size]
  · have one : recordsOf [source] = added source := by
      rw [recordsOf, List.filter_cons_of_pos (by simpa using empty)]
      rfl
    rw [one, size_added_eq_zero, ReadsAsNothing, or_iff_right empty]

/-- What is read of an entry beside the entry. -/
def extra (entry : StatusEntry) : Dirty Units :=
  recordsOf (if entry.moves then [entry.source] else [])

theorem recordsOf_fields (entry : StatusEntry) :
    recordsOf entry.fields = (dirtyOf [entry]).append (extra entry) := by
  rw [StatusEntry.fields, extra]
  split_ifs with moves
  · rw [← List.singleton_append, recordsOf_append, recordsOf_record]
  · rw [recordsOf_record]
    exact (Dirty.append_empty _).symm

/-- A status is read field by field. -/
theorem parseStatus_renderStatus (entries : List StatusEntry) :
    parseStatus (renderStatus entries) = recordsOf (entries.flatMap StatusEntry.fields) := by
  have plain : ∀ field ∈ entries.flatMap StatusEntry.fields ++ [[]], 0 ∉ field := by
    intro field member
    obtain member | last := List.mem_append.mp member
    · obtain ⟨entry, -, among⟩ := List.mem_flatMap.mp member
      have record : 0 ∉ entry.record := by
        have letters : ∀ letter : StatusLetter, letter.unit ≠ 0 := by
          intro letter
          cases letter <;> decide
        simp only [StatusEntry.record, List.mem_cons, not_or]
        exact ⟨(letters _).symm, (letters _).symm, by decide, entry.path_plain⟩
      rw [StatusEntry.fields] at among
      split_ifs at among with moves
      · obtain rfl | among := List.mem_cons.mp among
        · exact record
        · rw [List.mem_singleton.mp among]
          exact entry.source_plain
      · rw [List.mem_singleton.mp among]
        exact record
    · rw [List.mem_singleton.mp last]
      exact List.not_mem_nil
  have cut : (renderStatus entries).splitOn 0 = entries.flatMap StatusEntry.fields ++ [[]] := by
    calc (renderStatus entries).splitOn 0
      _ = ([0].intercalate (entries.flatMap StatusEntry.fields ++ [[]])).splitOn 0 := by
        rw [intercalate_concat, List.append_nil]
        rfl
      _ = entries.flatMap StatusEntry.fields ++ [[]] := List.splitOn_intercalate 0 plain (by simp)
  rw [parseStatus, cut, recordsOf, List.filter_append]
  simp

/-- Nothing of the entries is missing in what is read. -/
theorem size_dirtyOf_le (entries : List StatusEntry) :
    (dirtyOf entries).size ≤ (recordsOf (entries.flatMap StatusEntry.fields)).size := by
  induction entries with
  | nil => exact Nat.le_refl _
  | cons entry rest ih =>
      rw [List.flatMap_cons, recordsOf_append, recordsOf_fields, dirtyOf_cons entry rest]
      simp only [Dirty.size_append]
      omega

/-- A status is read exactly as its entries exactly when no source reads as a record: each is
empty or starts with two blanks. -/
theorem status_exact_iff (entries : List StatusEntry) :
    parseStatus (renderStatus entries) = dirtyOf entries ↔
      ∀ entry ∈ entries, entry.moves = true → ReadsAsNothing entry.source := by
  have silent (entry : StatusEntry) : (extra entry).size = 0 ↔
      (entry.moves = true → ReadsAsNothing entry.source) := by
    rw [extra]
    split_ifs with moves
    · rw [recordsOf_source]
      exact ⟨fun nothing _ => nothing, fun nothing => nothing moves⟩
    · exact ⟨fun _ moved => absurd moved moves, fun _ => rfl⟩
  rw [parseStatus_renderStatus]
  induction entries with
  | nil => simp [recordsOf, dirtyOf]
  | cons entry rest ih =>
      have more := size_dirtyOf_le rest
      rw [List.flatMap_cons, recordsOf_append, recordsOf_fields, dirtyOf_cons entry rest,
        Dirty.append_assoc, List.forall_mem_cons, ← silent]
      constructor
      · intro same
        have same := Dirty.append_left_cancel same
        have sizes := congrArg Dirty.size same
        rw [Dirty.size_append] at sizes
        have none : (extra entry).size = 0 := by omega
        rw [Dirty.eq_empty none, Dirty.empty_append] at same
        exact ⟨none, ih.mp same⟩
      · rintro ⟨none, later⟩
        rw [Dirty.eq_empty none, Dirty.empty_append, ih.mpr later]

/-- A renamed file whose source is not blank. -/
def renamedFile : StatusEntry where
  index := .renamed
  worktree := .unmodified
  path := [unitOf 'b']
  source := [unitOf 'a']
  path_plain := by decide
  source_plain := by decide

/-- The source of a rename is listed as one more staged and unstaged path. -/
theorem status_exact_refuted :
    ¬ ∀ entries, parseStatus (renderStatus entries) = dirtyOf entries := by
  intro exact
  have read : parseStatus (renderStatus [renamedFile]) = ⟨[[unitOf 'b'], []], [[]], []⟩ := by
    decide
  have same := (exact [renamedFile]).symm.trans read
  exact absurd same (by decide)

end AdCoder.ProjectOperations
