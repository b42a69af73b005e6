import AdCoder.ProjectOperations.FollowUps
import AdCoder.ProjectOperations.PublishingStatus

/-!
# The paths of a published commit

The publisher compares the strings of its list with the dirty paths as strings,
and hands them to git, which reads them as path specs. What git makes of its
arguments is a parameter: which path specs select which paths, and that `add`
takes over the working tree at the selected paths.
-/

namespace AdCoder.ProjectOperations

open Foundation

/-! ## Git and the working directory -/

/-- The content of every path that a tree, an index or a working directory has. -/
abbrev Tree (Blob : Type) := String → Option Blob

/-- The commands of git that build a commit, by their documented effect. -/
structure Git (Blob : Type) where
  /-- Whether a string, read as a path spec, selects a path. -/
  selects : String → String → Bool
  /-- `git add --`: the index after it, unless the command fails. -/
  add : Tree Blob → Tree Blob → List String → Option (Tree Blob)
  treeOid : Tree Blob → String
  add_eq : ∀ {index work : Tree Blob} {specs : List String} {next : Tree Blob},
    add index work specs = some next →
      ∀ path, next path = if specs.any fun spec => selects spec path then work path else index path

/-- What `lstat` finds at a path. -/
inductive FileKind where
  | directory
  | other
  | missing
  | unreadable
  deriving DecidableEq

structure PublishingRepository (Blob : Type) where
  branch : String
  headOid : String
  head : Tree Blob
  work : Tree Blob
  lstat : String → FileKind

/-- What the commit depends on of a `FinishPublishingInput`. -/
structure FinishPublishingInput where
  featureBranch : String
  dirty : Dirty String
  paths : List String
  commitMessage : String
  authorizeInitiallyDirtyPaths : Option (List String)
  approvedTreeOid : Option String

structure Commit (Blob : Type) where
  tree : Tree Blob
  parent : String
  message : String

inductive PublishingFailure where
  | refused (error : ProjectOperationsError)
  | fileSystem
  deriving DecidableEq

def refusePublishing {α : Type} (code : ProjectOperationsErrorCode) (detail : String) :
    Except PublishingFailure α :=
  .error (.refused ⟨code, detail⟩)

/-! ## The list of paths -/

namespace FinishPublishingInput

variable (input : FinishPublishingInput)

/-- The paths that were dirty before the run. -/
def initial : List String := input.dirty.staged ++ input.dirty.unstaged ++ input.dirty.untracked

def authorized : List String := input.authorizeInitiallyDirtyPaths.getD []

end FinishPublishingInput

/-- The spellings that are refused. -/
def unsafePath (file : String) : Bool :=
  let segments := file.toList.splitOnP fun x => x == '/' || x == '\\'
  file = "" || file.toList.head? = some '/' || segments.contains ['.', '.'] ||
    file.toList.head? = some '-'

/-- One path of the loop of `validatePaths`. -/
def validatePath (lstat : String → FileKind) (input : FinishPublishingInput) (file : String) :
    Except PublishingFailure String :=
  if unsafePath file then refusePublishing .unauthorizedPath "path"
  else
    match lstat file with
    | .directory => refusePublishing .unauthorizedPath file
    | .unreadable => .error .fileSystem
    | _ =>
        if file ∈ input.initial ∧ file ∉ input.authorized then refusePublishing .unauthorizedPath file
        else .ok file

def validatePaths (lstat : String → FileKind) (input : FinishPublishingInput) :
    Except PublishingFailure (List String) :=
  if input.paths = [] then refusePublishing .unauthorizedPath "paths"
  else (input.paths.mapM (validatePath lstat input)).map List.eraseDups

/-! ## The commit -/

def currentBranch {Blob : Type} (repository : PublishingRepository Blob)
    (protectedBases : List String) : Except PublishingFailure String :=
  if repository.branch ∈ protectedBases then refusePublishing .protectedBase repository.branch
  else .ok repository.branch

/-- The commit on top of the branch: the index starts as the tree of the head. -/
def buildCommit {Blob : Type} (git : Git Blob) (repository : PublishingRepository Blob)
    (protectedBases : List String) (input : FinishPublishingInput) :
    Except PublishingFailure (Commit Blob) := do
  let branch ← currentBranch repository protectedBases
  if branch ≠ input.featureBranch then refusePublishing .publishFailed "feature branch"
  else
    let specs ← validatePaths repository.lstat input
    match git.add repository.head repository.work specs with
    | none => refusePublishing .publishFailed "git add --"
    | some tree =>
        if input.approvedTreeOid.any (· ≠ git.treeOid tree) then
          refusePublishing .staleBinding "published tree"
        else .ok ⟨tree, repository.headOid, input.commitMessage ++ "\n"⟩

/-! ## What is published -/

/-- A path without empty segments and without the segment that stays where it is. -/
def plainPath (file : String) : String :=
  String.ofList (['/'].intercalate
    ((file.toList.splitOn '/').filter fun segment => segment ≠ [] ∧ segment ≠ ['.']))

/-- The file that a string of the list names: the path itself, however it is spelled. -/
def NamedBy (paths : List String) (path : String) : Prop :=
  ∃ file ∈ paths, file = path ∨ plainPath file = path

/-- A path that may be published: it is named, and it was clean or is authorised. -/
def Publishable (input : FinishPublishingInput) (path : String) : Prop :=
  NamedBy input.paths path ∧ (path ∈ input.initial → path ∈ input.authorized)

section Published

variable {Blob : Type} {git : Git Blob} {repository : PublishingRepository Blob}
  {protectedBases : List String} {input : FinishPublishingInput} {commit : Commit Blob}

theorem validatePath_eq_ok {lstat : String → FileKind} {file result : String}
    (accepted : validatePath lstat input file = .ok result) :
    (file ∈ input.initial → file ∈ input.authorized) ∧ result = file := by
  rw [validatePath] at accepted
  by_cases spelling : unsafePath file = true
  · rw [if_pos spelling] at accepted
    cases accepted
  · rw [if_neg spelling] at accepted
    split at accepted
    · cases accepted
    · cases accepted
    · split_ifs at accepted with dirty
      · cases accepted
      · rw [not_and_not_right] at dirty
        exact ⟨dirty, (Except.ok.inj accepted).symm⟩

theorem validatePaths_eq_ok {lstat : String → FileKind} {specs : List String}
    (accepted : validatePaths lstat input = .ok specs) :
    (∀ file, file ∈ specs ↔ file ∈ input.paths) ∧
      ∀ file ∈ input.paths, file ∈ input.initial → file ∈ input.authorized := by
  have step {file result : String} : validatePath lstat input file = .ok result ↔
      validatePath lstat input file = .ok file ∧ result = file := by
    constructor
    · intro checked
      obtain ⟨-, rfl⟩ := validatePath_eq_ok checked
      exact ⟨checked, rfl⟩
    · rintro ⟨checked, rfl⟩
      exact checked
  rw [validatePaths] at accepted
  split_ifs at accepted with empty
  · cases accepted
  · obtain ⟨files, checked, rfl⟩ := map_eq_ok.mp accepted
    obtain ⟨all, rfl⟩ := (mapM_eq_ok_self step).mp checked
    exact ⟨fun file => List.mem_eraseDups, fun file member => (validatePath_eq_ok (all file member)).1⟩

/-- A built commit takes the working tree at the paths that the list selects. -/
theorem buildCommit_tree (built : buildCommit git repository protectedBases input = .ok commit) :
    (∀ file ∈ input.paths, file ∈ input.initial → file ∈ input.authorized) ∧
      ∀ path, commit.tree path = if input.paths.any fun file => git.selects file path then
        repository.work path else repository.head path := by
  rw [buildCommit, bind_eq_ok] at built
  obtain ⟨branch, -, built⟩ := built
  split_ifs at built with feature
  · cases built
  · obtain ⟨specs, accepted, built⟩ := bind_eq_ok.mp built
    obtain ⟨same, authorized⟩ := validatePaths_eq_ok accepted
    refine ⟨authorized, fun path => ?_⟩
    split at built
    · cases built
    · next tree added =>
        split_ifs at built with stale
        · cases built
        · obtain rfl := Except.ok.inj built
          have any : (specs.any fun file => git.selects file path) =
              input.paths.any fun file => git.selects file path := by
            rw [Bool.eq_iff_iff, List.any_eq_true, List.any_eq_true]
            exact exists_congr fun file => and_congr_left fun _ => same file
          rw [← any]
          exact git.add_eq added path

end Published

/-! ## An alias of a dirty path -/

/-- Git on plain spellings: a path spec selects its path and what is below it. -/
def plainGit : Git Nat where
  selects file path :=
    path = plainPath file || ((plainPath file).toList ++ ['/']).isPrefixOf path.toList
  add index work specs := some fun path =>
    if specs.any fun file =>
        path = plainPath file || ((plainPath file).toList ++ ['/']).isPrefixOf path.toList then
      work path
    else index path
  treeOid _ := "tree"
  add_eq := by
    rintro index work specs next ⟨⟩ path
    rfl

/-- A tracked file that was edited before the run. -/
def editedNotes : PublishingRepository Nat where
  branch := "feature/notes"
  headOid := "head"
  head path := if path = "notes.md" then some 0 else none
  work path := if path = "notes.md" then some 1 else none
  lstat _ := .other

def publishNotes (file : String) (authorized : Option (List String)) : FinishPublishingInput where
  featureBranch := "feature/notes"
  dirty := ⟨[], ["notes.md"], []⟩
  paths := [file]
  commitMessage := "notes"
  authorizeInitiallyDirtyPaths := authorized
  approvedTreeOid := none

end AdCoder.ProjectOperations
