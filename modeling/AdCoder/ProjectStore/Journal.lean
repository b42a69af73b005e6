import AdCoder.Foundation.Json

/-!
# Ordered appends to a session journal

Transactions reach the file system in any order. Each journal keeps those that
came early until the gap before them is closed. What the file system answers to
a write is not ours to choose.
-/

namespace AdCoder.ProjectStore

open AdCoder.Foundation

/-- The sequence numbers of one transaction. -/
structure SequenceRange where
  first : Nat
  last : Nat
  ordered : first ≤ last
  deriving DecidableEq

/-- The property `seq` of a write. -/
def writeSequence : Json → Option Nat
  | .obj fields =>
      match Json.lookup "seq" fields with
      | some (.num (.finite q)) =>
          if JsNumber.isSafeInteger (.finite q) ∧ 0 ≤ q then some q.num.toNat else none
      | _ => none
  | _ => none

/-- The numbers are consecutive from the first on. -/
def consecutive (first : Nat) : List Nat → Option SequenceRange
  | [] => none
  | sequence :: rest =>
      if (sequence :: rest) = List.range' first (rest.length + 1) then
        some ⟨first, first + rest.length, Nat.le_add_right _ _⟩
      else none

def transactionSequence (format : NumberFormat) (content : List Char) : Option SequenceRange := do
  let parsed ← JsonText.parse format content
  let writes := match parsed with
    | .arr items => items
    | single => [single]
  let sequences ← writes.mapM writeSequence
  let first ← sequences.head?
  consecutive first sequences

/-- The journal's text; `none` is a file that does not exist. -/
def lastCommittedSequence (format : NumberFormat) : Option (List Char) → Option Nat
  | none => none
  | some text =>
      let lines := (trimEnd text).splitOn '\n'
      (lines.reverse.findSome? fun line =>
        if line = [] then none else transactionSequence format line).map (·.last)

/-- One call of `appendTransaction` that waits for its turn; `call` is whom it settles. -/
structure OrderedAppend where
  call : Nat
  content : List Char
  sequence : SequenceRange
  deriving DecidableEq

structure OrderedAppendState where
  nextSequence : Nat
  /-- By the first sequence number. -/
  pending : List OrderedAppend
  deriving DecidableEq

namespace OrderedAppendState

def get (state : OrderedAppendState) (sequence : Nat) : Option OrderedAppend :=
  state.pending.find? fun entry => entry.sequence.first = sequence

def delete (state : OrderedAppendState) (sequence : Nat) : OrderedAppendState :=
  { state with pending := state.pending.filter fun entry => entry.sequence.first ≠ sequence }

def set (state : OrderedAppendState) (entry : OrderedAppend) : OrderedAppendState :=
  { state with pending := state.pending ++ [entry] }

end OrderedAppendState

/-- What writing a content does: all of it is appended; an error is returned after some of it
was; an unsafe file is thrown as a `ProjectStoreError`. -/
inductive WriteOutcome where
  | written
  | failed (kept : Nat)
  | thrown
  deriving DecidableEq

/-- How a call of `appendTransaction` ends. -/
inductive Settlement where
  | ok
  | alreadyCommitted
  | alreadyPending
  | failed
  | rejected
  deriving DecidableEq

/-- A write that was tried, with what it left in the file. -/
structure Write where
  entry : OrderedAppend
  outcome : WriteOutcome
  deriving DecidableEq

def Write.text (write : Write) : List Char :=
  match write.outcome with
  | .written => write.entry.content
  | .failed kept => write.entry.content.take kept
  | .thrown => []

/-- The journal's file and its entry in `orderedAppends`, with a history of the calls, of the
writes and of the settled promises, each oldest first. -/
structure Journal where
  file : Option (List Char)
  opened : Option OrderedAppendState
  calls : List OrderedAppend
  writes : List Write
  settled : List (Nat × Settlement)
  deriving DecidableEq

namespace Journal

def start (file : Option (List Char)) : Journal :=
  { file, opened := none, calls := [], writes := [], settled := [] }

/-- A promise settles once. -/
def settle (journal : Journal) (call : Nat) (settlement : Settlement) : Journal :=
  if journal.settled.any (·.1 = call) then journal
  else { journal with settled := journal.settled ++ [(call, settlement)] }

def write (journal : Journal) (entry : OrderedAppend) (outcome : WriteOutcome) : Journal :=
  let write : Write := ⟨entry, outcome⟩
  { journal with
    file :=
      if outcome = .thrown then journal.file else some (journal.file.getD [] ++ write.text)
    writes := journal.writes ++ [write] }

/-- The loop of `flushTransactions` inside the promise of one call. Every round deletes an entry,
so that the entries and one round more are fuel enough. -/
def flushTransactions (outcomes : OrderedAppend → WriteOutcome) (call : Nat) :
    Nat → OrderedAppendState → Journal → Journal
  | 0, state, journal => { journal with opened := some state }
  | fuel + 1, state, journal =>
      match state.get state.nextSequence with
      | none => { journal with opened := some state }
      | some pending =>
          let left := state.delete state.nextSequence
          let journal := journal.write pending (outcomes pending)
          match outcomes pending with
          | .failed _ => { journal.settle pending.call .failed with opened := some left }
          | .thrown => { journal.settle call .rejected with opened := some left }
          | .written =>
              flushTransactions outcomes call fuel
                { left with nextSequence := pending.sequence.last + 1 }
                (journal.settle pending.call .ok)

/-- What a call meets in the file system: whether the first reading of the journal throws, and
what each write does. -/
structure Answers where
  unreadable : Bool
  outcomes : OrderedAppend → WriteOutcome

/-- One call, up to its first wait. -/
def appendTransaction (format : NumberFormat) (answers : Answers) (journal : Journal)
    (content : List Char) (sequence : SequenceRange) : Journal :=
  let entry : OrderedAppend := ⟨journal.calls.length, content, sequence⟩
  let journal := { journal with calls := journal.calls ++ [entry] }
  if journal.opened = none ∧ answers.unreadable then journal.settle entry.call .rejected
  else
    let state := journal.opened.getD
      ⟨(lastCommittedSequence format journal.file).getD 0 + 1, []⟩
    if sequence.first < state.nextSequence then
      { journal.settle entry.call .alreadyCommitted with opened := some state }
    else if (state.get sequence.first).isSome then
      { journal.settle entry.call .alreadyPending with opened := some state }
    else
      flushTransactions answers.outcomes entry.call (state.pending.length + 2)
        (state.set entry) journal

/-- The arguments of a call. -/
structure Arrival where
  answers : Answers
  content : List Char
  sequence : SequenceRange

def run (format : NumberFormat) (journal : Journal) (arrivals : List Arrival) : Journal :=
  arrivals.foldl (fun journal arrival =>
    journal.appendTransaction format arrival.answers arrival.content arrival.sequence) journal

/-- The transactions that were written whole, in the order of their writes. -/
def committed (journal : Journal) : List OrderedAppend :=
  (journal.writes.filter (·.outcome = .written)).map (·.entry)

end Journal

end AdCoder.ProjectStore
