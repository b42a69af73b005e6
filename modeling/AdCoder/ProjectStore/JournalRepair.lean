import AdCoder.Foundation.JsonLaws
import AdCoder.Foundation.Lists
import AdCoder.Foundation.Utf8
import AdCoder.ProjectStore.JournalOrder

/-!
# Repair of a session journal

An older runtime may have appended whole transactions out of order. They are
put in order only where every line is a transaction and their ranges close up;
transactions that overlap are only reported.
-/

namespace AdCoder.ProjectStore

open AdCoder.Foundation

/-- A line of the journal, with the numbers of its transaction. -/
structure Transaction where
  line : List Char
  sequence : SequenceRange
  deriving DecidableEq

/-- The lines of a file as both functions read them. -/
def journalLines (file : ByteArray) : List (List Char) :=
  (trimEnd (decodeText file)).splitOn '\n'

/-- The lines as transactions, if each of them is one. -/
def transactions? (format : NumberFormat) (lines : List (List Char)) :
    Option (List Transaction) :=
  lines.mapM fun line => (transactionSequence format line).map (⟨line, ·⟩)

/-- The number after the last range, if each range starts where the one before it ends. -/
def closesUp : Nat → List SequenceRange → Option Nat
  | expected, [] => some expected
  | expected, range :: rest =>
      if range.first = expected then closesUp (range.last + 1) rest else none

def journalText (header : List Char) (lines : List (List Char)) : List Char :=
  header ++ '\n' :: ['\n'].intercalate lines ++ ['\n']

/-- What a repair writes, and the number that the journal then expects. -/
structure Repaired where
  content : ByteArray
  nextSequence : Nat

def inOrder (transactions : List Transaction) : List Transaction :=
  transactions.mergeSort fun left right => left.sequence.first ≤ right.sequence.first

/-- `none` leaves the file as it is. -/
def repairOutOfOrderTransactions (format : NumberFormat) (file : ByteArray) : Option Repaired :=
  match journalLines file with
  | [] => none
  | header :: lines => do
      let transactions ← transactions? format lines
      let ordered := inOrder transactions
      if ordered.map (·.line) = lines then none
      else
        let first ← ordered.head?
        let next ← closesUp first.sequence.first (ordered.map (·.sequence))
        return ⟨encodeText (journalText header (ordered.map (·.line))), next⟩

/-- Some range starts before the one before it has ended. -/
def neighboursOverlap : List SequenceRange → Bool
  | previous :: transaction :: rest =>
      transaction.first ≤ previous.last || neighboursOverlap (transaction :: rest)
  | _ => false

def hasOverlappingTransactions (format : NumberFormat) (file : ByteArray) : Bool :=
  match journalLines file with
  | [] => false
  | _ :: lines =>
      match transactions? format lines with
      | none => false
      | some transactions => neighboursOverlap ((inOrder transactions).map (·.sequence))

variable {format : NumberFormat} {file : ByteArray} {lines : List (List Char)}
  {transactions : List Transaction} {ranges : List SequenceRange} {n next : Nat}

/-! ## Lines and transactions -/

theorem transactions?_cons {line : List Char} :
    transactions? format (line :: lines) = some transactions ↔
      ∃ range rest, transactionSequence format line = some range ∧
        transactions? format lines = some rest ∧ transactions = ⟨line, range⟩ :: rest := by
  simp only [transactions?, List.mapM_cons, Option.bind_eq_bind, Option.bind_eq_some_iff,
    Option.map_eq_some_iff, Option.pure_def, Option.some.injEq]
  constructor
  · rintro ⟨_, ⟨range, found, rfl⟩, rest, later, rfl⟩
    exact ⟨range, rest, found, later, rfl⟩
  · rintro ⟨range, rest, found, later, rfl⟩
    exact ⟨_, ⟨range, found, rfl⟩, rest, later, rfl⟩

/-- Each transaction keeps the line that it was read from. -/
theorem map_line (h : transactions? format lines = some transactions) :
    transactions.map (·.line) = lines := by
  induction lines generalizing transactions with
  | nil =>
      obtain rfl : transactions = [] := by simpa [transactions?, pure] using h.symm
      rfl
  | cons line lines ih =>
      obtain ⟨range, rest, -, later, rfl⟩ := transactions?_cons.mp h
      rw [List.map_cons, ih later]

/-! ## Order -/

/-- By the first number of the range. -/
def Sorted (transactions : List Transaction) : Prop :=
  transactions.Pairwise fun left right => left.sequence.first ≤ right.sequence.first

theorem inOrder_perm (transactions : List Transaction) :
    (inOrder transactions).Perm transactions :=
  List.mergeSort_perm _ _

theorem inOrder_sorted (transactions : List Transaction) : Sorted (inOrder transactions) := by
  let earlier (left right : Transaction) : Bool := left.sequence.first ≤ right.sequence.first
  have sorted : (transactions.mergeSort earlier).Pairwise (earlier · ·) :=
    List.pairwise_mergeSort (fun a b c ab bc => by simp [earlier] at *; omega)
      (fun a b => by simp [earlier]; omega) transactions
  exact sorted.imp fun h => by simpa [earlier] using h

/-- The sort is stable: what is in order stays as it is. -/
theorem inOrder_of_sorted (sorted : Sorted transactions) : inOrder transactions = transactions :=
  List.mergeSort_of_pairwise (sorted.imp fun h => by simpa using h)

theorem inOrder_eq_iff : inOrder transactions = transactions ↔ Sorted transactions :=
  ⟨fun same => same ▸ inOrder_sorted transactions, inOrder_of_sorted⟩

theorem transactionSequence_line (h : transactions? format lines = some transactions) :
    ∀ transaction ∈ transactions,
      transactionSequence format transaction.line = some transaction.sequence := by
  induction lines generalizing transactions with
  | nil =>
      obtain rfl : transactions = [] := by simpa [transactions?, pure] using h.symm
      exact fun transaction member => nomatch member
  | cons line lines ih =>
      obtain ⟨range, rest, found, later, rfl⟩ := transactions?_cons.mp h
      intro transaction member
      rcases List.mem_cons.mp member with rfl | member
      · exact found
      · exact ih later transaction member

/-- The same lines are the same transactions. -/
theorem eq_of_lines {one other : List Transaction}
    (first : ∀ transaction ∈ one,
      transactionSequence format transaction.line = some transaction.sequence)
    (second : ∀ transaction ∈ other,
      transactionSequence format transaction.line = some transaction.sequence)
    (same : one.map (·.line) = other.map (·.line)) : one = other := by
  induction one generalizing other with
  | nil => exact (List.map_eq_nil_iff.mp same.symm).symm
  | cons left one ih =>
      obtain ⟨right, rest, rfl, line, lines⟩ := List.map_eq_cons_iff.mp same.symm
      have sequences : left.sequence = right.sequence := by
        have here := first left List.mem_cons_self
        rw [show left.line = right.line from line.symm, second right List.mem_cons_self] at here
        exact (Option.some.inj here).symm
      have heads : left = right := by
        cases left
        cases right
        simp_all
      rw [heads, ih (fun t m => first t (List.mem_cons_of_mem _ m))
        (fun t m => second t (List.mem_cons_of_mem _ m)) lines.symm]

/-- The lines change places just when they are not in order. -/
theorem lines_inOrder_iff (h : transactions? format lines = some transactions) :
    (inOrder transactions).map (·.line) = lines ↔ Sorted transactions := by
  have read := transactionSequence_line h
  rw [← inOrder_eq_iff]
  constructor
  · intro same
    refine eq_of_lines (fun t member => read t ((inOrder_perm _).mem_iff.mp member)) read ?_
    rw [same, map_line h]
  · intro same
    rw [same, map_line h]

/-! ## Ranges that close up -/

theorem closesUp_eq_some : closesUp n ranges = some next ↔ Contiguous n ranges next := by
  induction ranges generalizing n with
  | nil => exact Option.some_inj
  | cons range rest ih =>
      rw [closesUp, Contiguous]
      by_cases here : range.first = n
      · simp [here, ih]
      · simp [here]

theorem Contiguous.sorted (h : Contiguous n (transactions.map (·.sequence)) next) :
    transactions.Pairwise fun left right => left.sequence.first < right.sequence.first := by
  have increasing := List.pairwise_map.mp h.increasing
  exact increasing.imp fun {left right} h => Nat.lt_of_le_of_lt left.sequence.ordered h

/-- There is one way to put transactions in an order in which they close up. -/
theorem inOrder_of_contiguous {ordered : List Transaction}
    (perm : ordered.Perm transactions)
    (h : Contiguous n (ordered.map (·.sequence)) next) : inOrder transactions = ordered := by
  have strict := h.sorted
  have reordered := (inOrder_perm transactions).trans perm.symm
  refine reordered.eq_of_pairwise ?_ (inOrder_sorted transactions) (strict.imp Nat.le_of_lt)
  intro left right member member' le ge
  have firsts : (ordered.map (·.sequence.first)).Nodup :=
    List.pairwise_map.mpr (strict.imp Nat.ne_of_lt)
  exact List.inj_on_of_nodup_map firsts (reordered.mem_iff.mp member) member'
    (Nat.le_antisymm le ge)

/-! ## When the file is repaired -/

/-- The repair of a file, described without the computation. -/
structure Repairs (format : NumberFormat) (file : ByteArray) (header : List Char)
    (ordered : List Transaction) (repaired : Repaired) : Prop where
  lines : ∃ transactions, journalLines file = header :: transactions.map (·.line) ∧
    (∀ transaction ∈ transactions,
      transactionSequence format transaction.line = some transaction.sequence) ∧
    ¬ Sorted transactions ∧ ordered.Perm transactions
  contiguous : ∃ first, Contiguous first (ordered.map (·.sequence)) repaired.nextSequence
  content : repaired.content = encodeText (journalText header (ordered.map (·.line)))

theorem transactions?_of_lines
    (read : ∀ transaction ∈ transactions,
      transactionSequence format transaction.line = some transaction.sequence) :
    transactions? format (transactions.map (·.line)) = some transactions := by
  induction transactions with
  | nil => rfl
  | cons transaction rest ih =>
      exact transactions?_cons.mpr ⟨transaction.sequence, rest, read _ List.mem_cons_self,
        ih fun t m => read t (List.mem_cons_of_mem _ m), rfl⟩

theorem repair_of_transactions {header : List Char}
    (split : journalLines file = header :: lines)
    (read : transactions? format lines = some transactions) :
    repairOutOfOrderTransactions format file =
      if (inOrder transactions).map (·.line) = lines then none
      else (inOrder transactions).head?.bind fun first =>
        (closesUp first.sequence.first ((inOrder transactions).map (·.sequence))).map fun next =>
          ⟨encodeText (journalText header ((inOrder transactions).map (·.line))), next⟩ := by
  simp only [repairOutOfOrderTransactions, split, read, Option.bind_eq_bind, Option.bind_some]
  split
  · rfl
  · congr
    funext first
    cases closesUp first.sequence.first ((inOrder transactions).map (·.sequence)) with
    | none => rfl
    | some next => rfl

theorem journalLines_eq_cons (file : ByteArray) :
    ∃ header lines, journalLines file = header :: lines :=
  List.exists_cons_of_ne_nil (List.splitOn_ne_nil _ _)

theorem repair_eq_some {repaired : Repaired} :
    repairOutOfOrderTransactions format file = some repaired ↔
      ∃ header ordered, Repairs format file header ordered repaired := by
  constructor
  · intro h
    obtain ⟨header, lines, split⟩ := journalLines_eq_cons file
    cases read : transactions? format lines with
    | none => simp [repairOutOfOrderTransactions, split, read] at h
    | some transactions =>
        rw [repair_of_transactions split read] at h
        by_cases same : (inOrder transactions).map (·.line) = lines
        · simp [same] at h
        · rw [if_neg same] at h
          obtain ⟨first, -, h⟩ := Option.bind_eq_some_iff.mp h
          obtain ⟨next, closes, rfl⟩ := Option.map_eq_some_iff.mp h
          refine ⟨header, inOrder transactions, ⟨transactions, ?_, transactionSequence_line read,
            fun sorted => same ((lines_inOrder_iff read).mpr sorted), inOrder_perm _⟩,
            ⟨_, closesUp_eq_some.mp closes⟩, rfl⟩
          rw [split, map_line read]
  · rintro ⟨header, ordered, ⟨transactions, split, read, unsorted, perm⟩, ⟨first, contiguous⟩,
      content⟩
    have all := transactions?_of_lines read
    have same := inOrder_of_contiguous perm contiguous
    have moved := mt (lines_inOrder_iff all).mp unsorted
    rw [repair_of_transactions split all, if_neg moved, same]
    cases ordered with
    | nil => exact absurd (perm.nil_eq ▸ .nil) unsorted
    | cons leader rest =>
        have starts : leader.sequence.first = first := contiguous.1
        rw [List.head?_cons, Option.bind_some, starts, closesUp_eq_some.mpr contiguous,
          Option.map_some, ← content]

/-! ## Overlaps -/

theorem neighboursOverlap_iff
    (sorted : ranges.Pairwise fun left right => left.first ≤ right.first) :
    neighboursOverlap ranges = false ↔ ranges.Pairwise fun left right => left.last < right.first := by
  induction ranges with
  | nil => simp [neighboursOverlap]
  | cons previous rest ih =>
      obtain ⟨before, sorted⟩ := List.pairwise_cons.mp sorted
      cases rest with
      | nil => simp [neighboursOverlap]
      | cons transaction rest =>
          rw [neighboursOverlap, Bool.or_eq_false_iff, ih sorted]
          constructor
          · rintro ⟨apart, later⟩
            have apart : previous.last < transaction.first := by simpa using apart
            refine List.pairwise_cons.mpr ⟨?_, later⟩
            intro other member
            rcases List.mem_cons.mp member with rfl | member
            · exact apart
            · have ordered := transaction.ordered
              have after := (List.pairwise_cons.mp later).1 other member
              omega
          · intro h
            obtain ⟨apart, later⟩ := List.pairwise_cons.mp h
            exact ⟨by simpa using apart transaction List.mem_cons_self, later⟩

theorem overlaps_comm {a b : SequenceRange} : Overlaps a b ↔ Overlaps b a := and_comm

/-- Among ranges in order, none overlaps just when each ends before the next ones start. -/
theorem apart_iff (sorted : ranges.Pairwise fun left right => left.first ≤ right.first) :
    (ranges.Pairwise fun left right => left.last < right.first) ↔
      ranges.Pairwise fun left right => ¬ Overlaps left right := by
  constructor
  · intro apart
    refine apart.imp ?_
    rintro left right before ⟨-, overlaps⟩
    exact Nat.not_lt.mpr overlaps before
  · intro apart
    refine (sorted.and apart).imp ?_
    rintro left right ⟨le, apart⟩
    have ordered := right.ordered
    unfold Overlaps at apart
    omega

theorem hasOverlapping_iff {header : List Char} (split : journalLines file = header :: lines) :
    hasOverlappingTransactions format file = true ↔
      ∃ transactions, transactions? format lines = some transactions ∧
        ¬ transactions.Pairwise fun left right => ¬ Overlaps left.sequence right.sequence := by
  simp only [hasOverlappingTransactions, split]
  cases read : transactions? format lines with
  | none => simp
  | some transactions =>
      have sorted : ((inOrder transactions).map (·.sequence)).Pairwise
          fun left right => left.first ≤ right.first :=
        List.pairwise_map.mpr (inOrder_sorted transactions)
      have any : neighboursOverlap ((inOrder transactions).map (·.sequence)) = false ↔
          transactions.Pairwise fun left right => ¬ Overlaps left.sequence right.sequence := by
        rw [neighboursOverlap_iff sorted, apart_iff sorted, List.pairwise_map]
        exact (inOrder_perm transactions).pairwise_iff fun apart => mt overlaps_comm.mp apart
      rw [← Bool.not_eq_false, any]
      simp

/-! ## Reading what was written -/

variable {header last : List Char} {init : List (List Char)}

theorem journalText_concat (header : List Char) (init : List (List Char)) (last : List Char) :
    journalText header (init ++ [last]) =
      (header :: init).flatMap (· ++ ['\n']) ++ last ++ ['\n'] := by
  rw [journalText, intercalate_concat]
  simp

theorem trimEnd_line (front : List Char) (word : ∃ x ∈ last, Regex.isSpace x = false) :
    trimEnd (front ++ last ++ ['\n']) = front ++ trimEnd last := by
  have kept : (last.reverse.dropWhile Regex.isSpace).isEmpty = false := by
    obtain ⟨x, member, visible⟩ := word
    rw [List.isEmpty_eq_false_iff, ne_eq, List.dropWhile_eq_nil_iff]
    intro all
    simp [all x (List.mem_reverse.mpr member)] at visible
  have newline : Regex.isSpace '\n' = true := by decide
  simp [trimEnd, newline, List.dropWhile_append, kept]

theorem dropMark_line (header rest : List Char) :
    Utf8.dropMark (header ++ '\n' :: rest) = Utf8.dropMark header ++ '\n' :: rest := by
  cases header with
  | nil => rfl
  | cons x header =>
      simp only [List.cons_append, Utf8.dropMark]
      split <;> rfl

theorem mem_of_mem_dropMark {x : Char} {text : List Char} (member : x ∈ Utf8.dropMark text) :
    x ∈ text := by
  cases text with
  | nil => exact member
  | cons y rest =>
      rw [Utf8.dropMark] at member
      split at member
      · exact List.mem_cons_of_mem _ member
      · exact member

theorem mem_of_mem_trimEnd {x : Char} {text : List Char} (member : x ∈ trimEnd text) :
    x ∈ text := by
  rw [trimEnd, List.mem_reverse] at member
  exact List.mem_reverse.mp ((List.dropWhile_sublist _).subset member)

/-- The lines of a text that was written, but for the white space at its end. -/
theorem journalLines_encodeText (fresh : ∀ line ∈ header :: (init ++ [last]), '\n' ∉ line)
    (word : ∃ x ∈ last, Regex.isSpace x = false) :
    journalLines (encodeText (journalText header (init ++ [last]))) =
      Utf8.dropMark header :: (init ++ [trimEnd last]) := by
  have shape (first : List Char) : (first :: init).flatMap (· ++ ['\n']) ++ last ++ ['\n'] =
      first ++ '\n' :: (init.flatMap (· ++ ['\n']) ++ last ++ ['\n']) := by simp
  have text : trimEnd (decodeText (encodeText (journalText header (init ++ [last])))) =
      ['\n'].intercalate (Utf8.dropMark header :: init ++ [trimEnd last]) := by
    rw [decodeText_encodeText, journalText_concat, shape, dropMark_line, ← shape,
      trimEnd_line _ word, intercalate_concat]
  rw [journalLines, text, List.splitOn_intercalate]
  · rfl
  · intro line member
    rcases List.mem_cons.mp member with rfl | member
    · exact fun inside => fresh header List.mem_cons_self (mem_of_mem_dropMark inside)
    · rcases List.mem_append.mp member with before | here
      · exact fresh line (List.mem_cons_of_mem _ (List.mem_append_left _ before))
      · obtain rfl := List.mem_singleton.mp here
        exact fun inside => fresh last (by simp) (mem_of_mem_trimEnd inside)
  · simp

theorem word_of_transaction {line : List Char} {range : SequenceRange}
    (read : transactionSequence format line = some range) :
    ∃ x ∈ line, Regex.isSpace x = false := by
  by_contra blank
  have none' : JsonText.parse format line = none :=
    JsonText.parse_blank format (by simpa using blank)
  simp [transactionSequence, none'] at read

/-- A repair changes the file. -/
theorem Repairs.changes {header : List Char} {ordered : List Transaction} {repaired : Repaired}
    (h : Repairs format file header ordered repaired) : repaired.content ≠ file := by
  obtain ⟨⟨transactions, split, read, unsorted, perm⟩, ⟨first, contiguous⟩, content⟩ := h
  have read' : ∀ transaction ∈ ordered,
      transactionSequence format transaction.line = some transaction.sequence :=
    fun transaction member => read transaction (perm.mem_iff.mp member)
  rcases ordered.eq_nil_or_concat with rfl | ⟨init, last, rfl⟩
  · exact absurd (perm.nil_eq ▸ .nil) unsorted
  · rw [List.concat_eq_append] at perm contiguous content read'
    have fresh : ∀ line ∈ header :: (init.map (·.line) ++ [last.line]), '\n' ∉ line := by
      intro line member
      have here : line ∈ journalLines file := by
        rw [split]
        refine List.mem_cons.mpr ((List.mem_cons.mp member).imp id fun later => ?_)
        rw [← (perm.map _).mem_iff]
        simpa using later
      exact separator_notMem_splitOn here
    have word := word_of_transaction (read' last (by simp))
    intro same
    have reread := journalLines_encodeText fresh word
    rw [List.map_append, List.map_singleton] at content
    rw [← content, same, split] at reread
    obtain ⟨-, lines⟩ := List.cons.inj reread
    -- The lines are those in order, but for white space after the last one.
    have lasts : [last.line].Perm [trimEnd last.line] := by
      have all := perm.map (·.line)
      rw [lines, List.map_append] at all
      exact (List.perm_append_left_iff _).mp all
    have ordered : transactions = init ++ [last] := by
      refine eq_of_lines read read' ?_
      rw [lines, ← List.singleton_perm_singleton.mp lasts]
      simp
    exact unsorted (ordered ▸ contiguous.sorted.imp Nat.le_of_lt)

theorem Repairs.apart {header : List Char} {ordered : List Transaction} {repaired : Repaired}
    (h : Repairs format file header ordered repaired) :
    hasOverlappingTransactions format file = false := by
  obtain ⟨⟨transactions, split, read, -, perm⟩, ⟨first, contiguous⟩, -⟩ := h
  have disjoint : ordered.Pairwise fun left right => ¬ Overlaps left.sequence right.sequence :=
    (List.pairwise_map.mp contiguous.increasing).imp fun {left right} before
        (overlaps : Overlaps left.sequence right.sequence) => Nat.not_lt.mpr overlaps.2 before
  have all := (perm.pairwise_iff fun apart => mt overlaps_comm.mp apart).mp disjoint
  rw [← Bool.not_eq_true, hasOverlapping_iff split, transactions?_of_lines read]
  simpa using all

/-! ## The repair as a whole -/

/-- Two lines that are transactions with intersecting ranges. -/
def SomeOverlap (transactions : List Transaction) : Prop :=
  ∃ (i j : Nat) (left right : Transaction), i < j ∧ transactions[i]? = some left ∧
    transactions[j]? = some right ∧ Overlaps left.sequence right.sequence

theorem not_pairwise_iff :
    (¬ transactions.Pairwise fun left right => ¬ Overlaps left.sequence right.sequence) ↔
      SomeOverlap transactions := by
  rw [List.pairwise_iff_getElem]
  constructor
  · intro h
    simp only [not_forall, not_not] at h
    obtain ⟨i, j, hi, hj, less, overlaps⟩ := h
    exact ⟨i, j, _, _, less, List.getElem?_eq_getElem hi, List.getElem?_eq_getElem hj, overlaps⟩
  · rintro ⟨i, j, left, right, less, atI, atJ, overlaps⟩ apart
    obtain ⟨hi, rfl⟩ := List.getElem?_eq_some_iff.mp atI
    obtain ⟨hj, rfl⟩ := List.getElem?_eq_some_iff.mp atJ
    exact apart i j hi hj less overlaps

/-- A file is read as lines, the first of which is its header. It is rewritten just when the
others are all transactions, not in order, and close up when they are put in order; then the
header and the same lines in order are written, and the file had no overlaps. Overlaps are
reported just when all lines are transactions and two of them intersect. -/
theorem journal_repair (format : NumberFormat) (file : ByteArray) :
    ∃ header lines, journalLines file = header :: lines ∧
      ((repairOutOfOrderTransactions format file).isSome ↔
        ∃ transactions, transactions? format lines = some transactions ∧ ¬ Sorted transactions ∧
          ∃ ordered : List Transaction, ordered.Perm transactions ∧
            ∃ first next, Contiguous first (ordered.map (·.sequence)) next) ∧
      (∀ repaired, repairOutOfOrderTransactions format file = some repaired →
        ∃ (ordered : List Transaction) (first : Nat), (ordered.map (·.line)).Perm lines ∧
          (∀ transaction ∈ ordered,
            transactionSequence format transaction.line = some transaction.sequence) ∧
          Contiguous first (ordered.map (·.sequence)) repaired.nextSequence ∧
          repaired.content = encodeText (journalText header (ordered.map (·.line))) ∧
          repaired.content ≠ file ∧ hasOverlappingTransactions format file = false) ∧
      (hasOverlappingTransactions format file = true ↔
        ∃ transactions, transactions? format lines = some transactions ∧
          SomeOverlap transactions) := by
  obtain ⟨header, lines, split⟩ := journalLines_eq_cons file
  refine ⟨header, lines, split, ⟨?_, ?_⟩, ?_, ?_⟩
  · intro repairs
    obtain ⟨repaired, repairs⟩ := Option.isSome_iff_exists.mp repairs
    obtain ⟨_, ordered, ⟨transactions, split', read, unsorted, perm⟩, ⟨first, contiguous⟩, -⟩ :=
      repair_eq_some.mp repairs
    obtain ⟨-, rfl⟩ := List.cons.inj (split.symm.trans split')
    exact ⟨transactions, transactions?_of_lines read, unsorted, ordered, perm, first, _,
      contiguous⟩
  · rintro ⟨transactions, read, unsorted, ordered, perm, first, next, contiguous⟩
    refine Option.isSome_iff_exists.mpr ⟨⟨_, next⟩, repair_eq_some.mpr ⟨header, ordered,
      ⟨transactions, ?_, transactionSequence_line read, unsorted, perm⟩, ⟨first, contiguous⟩, rfl⟩⟩
    rw [split, map_line read]
  · intro repaired repairs
    obtain ⟨header', ordered, repairs⟩ := repair_eq_some.mp repairs
    have changes := repairs.changes
    have apart := repairs.apart
    obtain ⟨⟨transactions, split', read, -, perm⟩, ⟨first, contiguous⟩, content⟩ := repairs
    obtain ⟨rfl, rfl⟩ := List.cons.inj (split.symm.trans split')
    exact ⟨ordered, first, perm.map _, fun t member => read t (perm.mem_iff.mp member),
      contiguous, content, changes, apart⟩
  · rw [hasOverlapping_iff split]
    simp only [not_pairwise_iff]

/-- A host that reads every numeral as one. -/
def onlyOnes : NumberFormat := ⟨fun _ => .finite 1, fun _ => "1"⟩

/-- Two transactions with the same number, and a line that is none. -/
def damagedJournal : ByteArray :=
  encodeText "header\n\x7b\"seq\":1\x7d\n\x7b\"seq\":1\x7d\npartial\n".toList

/-- The overlap is not reported, because of the other line. -/
theorem damaged_overlap_unreported :
    hasOverlappingTransactions onlyOnes damagedJournal = false ∧
      ∃ i j left right, i < j ∧ (journalLines damagedJournal)[i + 1]? = some left ∧
        (journalLines damagedJournal)[j + 1]? = some right ∧
        ∃ a b, transactionSequence onlyOnes left = some a ∧
          transactionSequence onlyOnes right = some b ∧ Overlaps a b := by
  have lines : journalLines damagedJournal = ["header".toList, "\x7b\"seq\":1\x7d".toList,
      "\x7b\"seq\":1\x7d".toList, "partial".toList] := by
    rw [journalLines, damagedJournal, decodeText_encodeText]
    decide +kernel
  have one : transactionSequence onlyOnes "\x7b\"seq\":1\x7d".toList =
      some ⟨1, 1, one_le_one⟩ := by decide +kernel
  constructor
  · rw [hasOverlappingTransactions, lines]
    decide +kernel
  · rw [lines]
    exact ⟨0, 1, _, _, Nat.zero_lt_one, rfl, rfl, _, _, one, one, Nat.le_refl 1, Nat.le_refl 1⟩

end AdCoder.ProjectStore
