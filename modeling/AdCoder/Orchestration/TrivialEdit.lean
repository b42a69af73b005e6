import AdCoder.Orchestration.Types
import Mathlib.Algebra.Order.BigOperators.Group.List
import Mathlib.Algebra.Order.Group.Nat
import Mathlib.Algebra.Ring.Nat

/-!
# The bound on trivial direct edits

A guarded edit is measured before it is applied and recorded after it. The
entries that no reviewer has approved yet form the window that the bound is on.
-/

namespace AdCoder.Orchestration

/-- `TRIVIAL_EDIT_MAX_CHANGED_LINES`. -/
def trivialEditMaxChangedLines : Nat := 5

/-- `TRIVIAL_EDIT_MAX_ENTRIES`. -/
def trivialEditMaxEntries : Nat := 50

/-! ## Measuring -/

/-- The breadth of a patch of one file. -/
structure TrivialEditPatchShape where
  linesAdded : Nat
  linesRemoved : Nat
  deriving DecidableEq

/-- Lines of a replacement text; one newline at its end is a terminator. -/
def countLines (text : String) : Nat :=
  let chars := text.toList
  if chars.isEmpty then 0
  else (if chars.getLast? = some '\n' then chars.dropLast else chars).count '\n' + 1

structure EditReplacement where
  oldText : String
  newText : String

/-- Every entry is charged its whole new and its whole old text. -/
def measureEditPatch (edits : List EditReplacement) : TrivialEditPatchShape where
  linesAdded := (edits.map (countLines ·.newText)).sum
  linesRemoved := (edits.map (countLines ·.oldText)).sum

def measureWritePatch (oldContent : Option String) (newContent : String) :
    TrivialEditPatchShape where
  linesAdded := countLines newContent
  linesRemoved := (oldContent.map countLines).getD 0

/-! ## The record -/

inductive TrivialEditTool where
  | edit
  | write
  deriving DecidableEq

inductive CoverVerdict where
  | approved
  | changesRequested
  deriving DecidableEq

/-- Reviewer cover of an entry, or why it has none yet. -/
inductive TrivialEditCover where
  | reviewed (reviewerRunId : String) (verdict : CoverVerdict) (issueCount : Option Nat)
  | reviewerUnavailable
  | reviewerFailed
  deriving DecidableEq

/-- One single-file change, as it was measured. -/
structure TrivialEditChange where
  tool : TrivialEditTool
  file : String
  linesAdded : Nat
  linesRemoved : Nat
  deriving DecidableEq

structure TrivialEditEntry extends TrivialEditChange where
  ts : Nat
  cover : TrivialEditCover
  covered : Bool
  deriving DecidableEq

def TrivialEditChange.lines (change : TrivialEditChange) : Nat :=
  change.linesAdded + change.linesRemoved

/-- The entries that are still in the window. -/
def uncovered (entries : List TrivialEditEntry) : List TrivialEditEntry :=
  entries.filter (!·.covered)

structure UncoveredTotals where
  lines : Nat
  files : Nat
  entries : Nat
  deriving DecidableEq

def uncoveredTotals (entries : List TrivialEditEntry) : UncoveredTotals where
  lines := ((uncovered entries).map (·.lines)).sum
  files := ((uncovered entries).map (·.file)).eraseDups.length
  entries := (uncovered entries).length

/-- The last entries that a record may hold. -/
def keepNewest {α : Type} (entries : List α) : List α :=
  entries.drop (entries.length - trivialEditMaxEntries)

def appendTrivialEditEntry (entries : List TrivialEditEntry) (entry : TrivialEditEntry) :
    List TrivialEditEntry :=
  keepNewest (entries ++ [entry])

/-- The cover that a verdict gives to an entry of the window. -/
def settledEntry (verdict : CoverVerdict) (reviewerRunId : String) (issueCount : Option Nat)
    (entry : TrivialEditEntry) : TrivialEditEntry :=
  if entry.covered then entry
  else match verdict with
    | .approved => { entry with
        cover := .reviewed reviewerRunId .approved none
        covered := true }
    | .changesRequested => { entry with
        cover := .reviewed reviewerRunId .changesRequested issueCount }

def settleTrivialEditCover (entries : List TrivialEditEntry) (verdict : CoverVerdict)
    (reviewerRunId : String) (issueCount : Option Nat) : List TrivialEditEntry :=
  entries.map (settledEntry verdict reviewerRunId issueCount)

/-! ## The guard -/

/-- The input of a guarded tool. -/
inductive GuardedInput where
  | edit (edits : List EditReplacement)
  | write (content : String)

structure GuardedCall where
  file : String
  input : GuardedInput

def GuardedInput.tool : GuardedInput → TrivialEditTool
  | edit _ => .edit
  | write _ => .write

/-- The patch of a call, measured on the content that was read. -/
def GuardedCall.shape (call : GuardedCall) (oldContent : Option String) :
    TrivialEditPatchShape :=
  match call.input with
  | .edit edits => measureEditPatch edits
  | .write content => measureWritePatch oldContent content

/-- The change that a call makes when its tool succeeds. -/
def GuardedCall.change (call : GuardedCall) (oldContent : Option String) : TrivialEditChange :=
  let shape := call.shape oldContent
  ⟨call.input.tool, call.file, shape.linesAdded, shape.linesRemoved⟩

/-- A second uncovered file, or too many lines over the whole window. -/
def exceedsBound (entries : List TrivialEditEntry) (change : TrivialEditChange) : Bool :=
  let totals := uncoveredTotals entries
  let fileAlreadyUncovered := entries.any fun entry => !entry.covered && entry.file == change.file
  (totals.files ≥ 1 && !fileAlreadyUncovered) ||
    totals.lines + change.linesAdded + change.linesRemoved > trivialEditMaxChangedLines

/-- The refusal, in counts and paths only. -/
def boundExceeded (entries : List TrivialEditEntry) (change : TrivialEditChange) : String :=
  let totals := uncoveredTotals entries
  "trivial edit bound exceeded: measured +" ++ toString change.linesAdded ++ "/-" ++
    toString change.linesRemoved ++ " lines on " ++ change.file ++ ", accumulated uncovered " ++
    toString totals.files ++ " file(s)/" ++ toString totals.lines ++
    " line(s), bound is 1 file / 5 changed lines -- delegate the change to a coder " ++
    "(run_role or a pipeline) instead"

/-- What a reviewer is asked about: the change, and the window with it. -/
structure CoverRequest where
  change : TrivialEditChange
  lines : Nat
  files : Nat

/-- The answer of the cover callback. -/
inductive CoverAnswer where
  | unavailable
  | failed
  | settled (verdict : VerdictStatus) (reviewerRunId : String) (issueCount : Option Nat)

/-- Only an approving verdict approves. -/
def coverVerdict : VerdictStatus → CoverVerdict
  | .approved => .approved
  | .changesRequested => .changesRequested
  | .decompositionRequired => .changesRequested

def CoverAnswer.approves : CoverAnswer → Bool
  | settled .approved _ _ => true
  | _ => false

/-- The cover of the call's own entry before the window is settled. -/
def CoverAnswer.cover : CoverAnswer → TrivialEditCover
  | unavailable => .reviewerUnavailable
  | failed => .reviewerFailed
  | settled verdict reviewerRunId issueCount =>
      match coverVerdict verdict with
      | .approved => .reviewed reviewerRunId .approved none
      | .changesRequested => .reviewed reviewerRunId .changesRequested issueCount

/-- Record an applied change and settle the window by the reviewer's answer. -/
def recordEdit (entries : List TrivialEditEntry) (change : TrivialEditChange) (ts : Nat)
    (answer : CoverAnswer) : List TrivialEditEntry :=
  let appended := appendTrivialEditEntry entries ⟨change, ts, answer.cover, false⟩
  match answer with
  | .unavailable => appended
  | .failed => appended
  | .settled verdict reviewerRunId issueCount =>
      settleTrivialEditCover appended (coverVerdict verdict) reviewerRunId issueCount

/-! ## Windows -/

/-- A window within the trivial allowance: one file, and few enough lines. -/
structure Trivial (window : List TrivialEditChange) : Prop where
  oneFile : ∀ a ∈ window, ∀ b ∈ window, a.file = b.file
  lines : (window.map (·.lines)).sum ≤ trivialEditMaxChangedLines

/-- The changes of the window of a record. -/
def windowOf (entries : List TrivialEditEntry) : List TrivialEditChange :=
  (uncovered entries).map (·.toTrivialEditChange)

theorem Trivial.nil : Trivial [] := ⟨by simp, by simp⟩

theorem Trivial.sublist {window part : List TrivialEditChange} (h : Trivial window)
    (sub : part.Sublist window) : Trivial part := by
  refine ⟨?_, ?_⟩
  · intro a ha b hb
    exact h.oneFile a (sub.subset ha) b (sub.subset hb)
  · have less : (part.map TrivialEditChange.lines).sum ≤
        (window.map TrivialEditChange.lines).sum :=
      (sub.map TrivialEditChange.lines).sum_le_sum fun _ _ => Nat.zero_le _
    exact less.trans h.lines

theorem keepNewest_sublist {α : Type} (entries : List α) : (keepNewest entries).Sublist entries :=
  List.drop_sublist ..

/-- Nothing is dropped while there is room. -/
theorem keepNewest_of_length {α : Type} {entries : List α}
    (room : entries.length ≤ trivialEditMaxEntries) : keepNewest entries = entries := by
  rw [keepNewest, Nat.sub_eq_zero_of_le room, List.drop_zero]

theorem mem_windowOf {entries : List TrivialEditEntry} {change : TrivialEditChange} :
    change ∈ windowOf entries ↔
      ∃ entry ∈ entries, entry.covered = false ∧ entry.toTrivialEditChange = change := by
  simp [windowOf, uncovered, and_assoc]

theorem windowOf_append (entries : List TrivialEditEntry) (entry : TrivialEditEntry)
    (fresh : entry.covered = false) :
    windowOf (entries ++ [entry]) = windowOf entries ++ [entry.toTrivialEditChange] := by
  simp [windowOf, uncovered, fresh]

/-- The totals of a record are those of its window. -/
theorem uncoveredTotals_lines (entries : List TrivialEditEntry) :
    (uncoveredTotals entries).lines = ((windowOf entries).map (·.lines)).sum := by
  simp [uncoveredTotals, windowOf, Function.comp_def]

theorem uncoveredTotals_files {entries : List TrivialEditEntry}
    (none : (uncoveredTotals entries).files = 0) : windowOf entries = [] := by
  rw [uncoveredTotals] at none
  rw [windowOf]
  cases open_ : uncovered entries with
  | nil => rfl
  | cons entry rest => simp [open_, List.eraseDups_cons] at none

/-- A change that does not exceed the bound leaves its window trivial. -/
theorem Trivial.extend {entries : List TrivialEditEntry} {change : TrivialEditChange}
    (h : Trivial (windowOf entries)) (fits : exceedsBound entries change = false) :
    Trivial (windowOf entries ++ [change]) := by
  obtain ⟨sameFile, lines⟩ := Bool.or_eq_false_iff.mp fits
  have joins : ∀ a ∈ windowOf entries, a.file = change.file := by
    intro a ha
    rcases Nat.eq_zero_or_pos (uncoveredTotals entries).files with none | some
    · simp [uncoveredTotals_files none] at ha
    · have found : entries.any (fun entry => !entry.covered && entry.file == change.file) =
          true := by
        simpa [Nat.one_le_iff_ne_zero, Nat.pos_iff_ne_zero.mp some] using sameFile
      obtain ⟨entry, hentry, facts⟩ := List.any_eq_true.mp found
      obtain ⟨uncovered, file⟩ := Bool.and_eq_true_iff.mp facts
      have mem : entry.toTrivialEditChange ∈ windowOf entries :=
        mem_windowOf.mpr ⟨entry, hentry, by simpa using uncovered, rfl⟩
      exact (h.oneFile a ha _ mem).trans (beq_iff_eq.mp file)
  refine ⟨?_, ?_⟩
  · intro a ha b hb
    rcases List.mem_append.mp ha with ha | ha <;> rcases List.mem_append.mp hb with hb | hb
    · exact h.oneFile a ha b hb
    · rw [List.mem_singleton.mp hb]
      exact joins a ha
    · rw [List.mem_singleton.mp ha]
      exact (joins b hb).symm
    · rw [List.mem_singleton.mp ha, List.mem_singleton.mp hb]
  · have total := of_decide_eq_false lines
    rw [uncoveredTotals_lines] at total
    rw [List.map_append, List.sum_append, List.map_singleton, List.sum_singleton,
      TrivialEditChange.lines]
    omega

/-! ### What recording does to the window -/

theorem settledEntry_approved (reviewerRunId : String) (issueCount : Option Nat)
    (entry : TrivialEditEntry) :
    (settledEntry .approved reviewerRunId issueCount entry).covered = true := by
  cases covered : entry.covered <;> simp [settledEntry, covered]

/-- An approval empties the window. -/
theorem windowOf_settle_approved (entries : List TrivialEditEntry) (reviewerRunId : String)
    (issueCount : Option Nat) :
    windowOf (settleTrivialEditCover entries .approved reviewerRunId issueCount) = [] := by
  rw [List.eq_nil_iff_forall_not_mem]
  intro change hchange
  obtain ⟨entry, hentry, uncovered, _⟩ := mem_windowOf.mp hchange
  obtain ⟨before, _, rfl⟩ := List.mem_map.mp hentry
  simp [settledEntry_approved] at uncovered

/-- A verdict that asks for changes keeps the window. -/
theorem windowOf_settle_changes (entries : List TrivialEditEntry) (reviewerRunId : String)
    (issueCount : Option Nat) :
    windowOf (settleTrivialEditCover entries .changesRequested reviewerRunId issueCount) =
      windowOf entries := by
  induction entries with
  | nil => rfl
  | cons entry rest ih =>
      simp only [windowOf, uncovered, settleTrivialEditCover, List.map_cons] at ih ⊢
      cases covered : entry.covered <;>
        simp [settledEntry, covered, ih]

/-- The window after an applied change was recorded. -/
theorem windowOf_recordEdit (entries : List TrivialEditEntry) (change : TrivialEditChange)
    (ts : Nat) (answer : CoverAnswer) :
    windowOf (recordEdit entries change ts answer) =
      if answer.approves then []
      else windowOf (keepNewest (entries ++ [⟨change, ts, answer.cover, false⟩])) := by
  cases answer with
  | unavailable => rfl
  | failed => rfl
  | settled verdict reviewerRunId issueCount =>
      cases verdict with
      | approved => exact windowOf_settle_approved ..
      | changesRequested => exact windowOf_settle_changes ..
      | decompositionRequired => exact windowOf_settle_changes ..

end AdCoder.Orchestration
