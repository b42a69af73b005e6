import Mathlib.Data.List.Infix

/-!
# Replacing a word

Global replacement of one fixed word by a shorter text, and its interplay with an escaping
that writes single letters as words. The words of an escaping share a first letter, the mark,
and have it nowhere else; then an occurrence of a word in an escaped text is either the image
of its letter or a literal occurrence.
-/

namespace AdCoder.Foundation

variable {α : Type*} [DecidableEq α]

/-- Replace the non-overlapping occurrences of a word, left to right. The counter says how many
letters of the last occurrence are still to be passed. -/
def replaceWord (word substitute : List α) : Nat → List α → List α
  | _, [] => []
  | skip + 1, _ :: rest => replaceWord word substitute skip rest
  | 0, x :: rest =>
      if word <+: x :: rest then
        substitute ++ replaceWord word substitute (word.length - 1) rest
      else x :: replaceWord word substitute 0 rest

/-- Write a letter as its word, if the table has one. -/
def escapeLetter (table : List (α × List α)) (x : α) : List α := (table.lookup x).getD [x]

def escapeText (table : List (α × List α)) (text : List α) : List α :=
  text.flatMap (escapeLetter table)

/-- Write the words of the table as their letters, one word after the other. -/
def unescapeText (table : List (α × List α)) (text : List α) : List α :=
  table.foldl (fun text entry => replaceWord entry.2 [entry.1] 0 text) text

variable {word substitute text rest : List α} {x y mark : α}

theorem replaceWord_skip (passed : List α) :
    replaceWord word substitute passed.length (passed ++ rest) =
      replaceWord word substitute 0 rest := by
  induction passed with
  | nil => rfl
  | cons x passed ih => exact ih

theorem replaceWord_here (ne : word ≠ []) :
    replaceWord word substitute 0 (word ++ rest) =
      substitute ++ replaceWord word substitute 0 rest := by
  obtain ⟨first, later, rfl⟩ := List.exists_cons_of_ne_nil ne
  rw [List.cons_append, replaceWord, if_pos ⟨rest, rfl⟩]
  exact congrArg (substitute ++ ·) (replaceWord_skip later)

theorem replaceWord_pass (absent : ¬ word <+: x :: rest) :
    replaceWord word substitute 0 (x :: rest) = x :: replaceWord word substitute 0 rest := by
  rw [replaceWord, if_neg absent]

/-- Letters at which the word cannot start are kept. -/
theorem replaceWord_keep {kept : List α} (start : word.head? = some mark)
    (free : ∀ x ∈ kept, x ≠ mark) :
    replaceWord word substitute 0 (kept ++ rest) = kept ++ replaceWord word substitute 0 rest := by
  induction kept with
  | nil => rfl
  | cons x kept ih =>
      have absent : ¬ word <+: x :: (kept ++ rest) := by
        rintro ⟨later, whole⟩
        obtain ⟨tail, rfl⟩ : ∃ tail, word = mark :: tail := List.head?_eq_some_iff.mp start
        exact free x List.mem_cons_self (List.cons.inj whole).1.symm
      calc
        _ = x :: replaceWord word substitute 0 (kept ++ rest) := replaceWord_pass absent
        _ = _ := congrArg (x :: ·) (ih fun y later => free y (List.mem_cons_of_mem x later))

/-- A text without the word stays as it is. -/
theorem replaceWord_of_absent (absent : ¬ word <:+: text) :
    replaceWord word substitute 0 text = text := by
  induction text with
  | nil => rfl
  | cons x rest ih =>
      rw [replaceWord_pass fun here => absent here.isInfix,
        ih fun inside => absent (inside.trans (List.suffix_cons x rest).isInfix)]

/-- Replacing a word by a shorter text shortens every text that has it. -/
theorem length_replaceWord (shorter : substitute.length < word.length) (text : List α) :
    (replaceWord word substitute 0 text).length ≤ text.length ∧
      (word <:+: text → (replaceWord word substitute 0 text).length < text.length) := by
  have ne : word ≠ [] := List.ne_nil_of_length_pos (Nat.zero_lt_of_lt shorter)
  induction size : text.length using Nat.strong_induction_on generalizing text with
  | _ n ih =>
      cases text with
      | nil => exact ⟨Nat.zero_le _, fun inside => absurd (List.infix_nil.mp inside) ne⟩
      | cons x rest =>
          by_cases here : word <+: x :: rest
          · obtain ⟨later, whole⟩ := here
            rw [← whole] at size ⊢
            rw [replaceWord_here ne]
            rw [List.length_append] at size ⊢
            have := (ih later.length (by omega) later rfl).1
            omega
          · rw [replaceWord_pass here]
            obtain ⟨le, lt⟩ := ih rest.length (by simp at size; omega) rest rfl
            simp only [List.length_cons] at size ⊢
            refine ⟨by omega, fun inside => ?_⟩
            have := lt ((List.infix_cons_iff.mp inside).resolve_left here)
            omega

/-- A text keeps its length only if it does not have the word. -/
theorem absent_of_length (shorter : substitute.length < word.length)
    (same : text.length ≤ (replaceWord word substitute 0 text).length) : ¬ word <:+: text :=
  fun inside => absurd ((length_replaceWord shorter text).2 inside) (Nat.not_lt.mpr same)

/-! ## Escaping -/

@[simp] theorem escapeText_nil (table : List (α × List α)) : escapeText table [] = [] := rfl

@[simp] theorem escapeText_cons (table : List (α × List α)) (x : α) (text : List α) :
    escapeText table (x :: text) = escapeLetter table x ++ escapeText table text := rfl

theorem escapeText_append (table : List (α × List α)) (front back : List α) :
    escapeText table (front ++ back) = escapeText table front ++ escapeText table back :=
  List.flatMap_append

theorem escapeText_empty (text : List α) : escapeText [] text = text := by
  induction text with
  | nil => rfl
  | cons x text ih => exact congrArg (x :: ·) ih

/-- Letters that the table does not have are kept. -/
theorem escapeLetter_literal {table : List (α × List α)} (free : x ∉ table.map Prod.fst) :
    escapeLetter table x = [x] := by
  have none : table.lookup x = none := by
    rw [List.lookup_eq_none_iff]
    intro entry member
    simp only [bne_iff_ne, ne_eq]
    exact fun same => free (List.mem_map.mpr ⟨entry, member, same.symm⟩)
  rw [escapeLetter, none]
  rfl

theorem escapeText_literal {table : List (α × List α)} (free : ∀ x ∈ text, x ∉ table.map Prod.fst) :
    escapeText table text = text := by
  induction text with
  | nil => rfl
  | cons x text ih =>
      rw [escapeText_cons, escapeLetter_literal (free x List.mem_cons_self),
        ih fun y later => free y (List.mem_cons_of_mem x later)]
      rfl

/-- The words of the table start with the mark; their other letters are neither the mark nor
escaped, and no word starts with another one. -/
structure Marked (mark : α) (table : List (α × List α)) : Prop where
  start : ∀ entry ∈ table, ∃ tail, entry.2 = mark :: tail ∧
    ∀ x ∈ tail, x ≠ mark ∧ x ∉ table.map Prod.fst
  apart : table.Pairwise fun left right => ¬ left.2 <+: right.2 ∧ ¬ right.2 <+: left.2
  keys : (table.map Prod.fst).Nodup

variable {table : List (α × List α)}

omit [DecidableEq α] in
theorem Marked.tail (marked : Marked mark ((x, word) :: table)) : Marked mark table where
  start := by
    intro entry member
    obtain ⟨tail, starts, free⟩ := marked.start entry (List.mem_cons_of_mem _ member)
    exact ⟨tail, starts, fun y inside =>
      ⟨(free y inside).1, fun key => (free y inside).2 (List.mem_cons_of_mem _ key)⟩⟩
  apart := marked.apart.of_cons
  keys := (List.nodup_cons.mp marked.keys).2

theorem escapeLetter_other (ne : y ≠ x) :
    escapeLetter ((x, word) :: table) y = escapeLetter table y := by
  rw [escapeLetter, List.lookup_cons, beq_false_of_ne ne]
  rfl

theorem escapeLetter_self : escapeLetter ((x, word) :: table) x = word := by
  rw [escapeLetter, List.lookup_cons, beq_self_eq_true]
  rfl

/-- A letter is written as a word of the table or kept. -/
theorem escapeLetter_cases (table : List (α × List α)) (y : α) :
    (∃ written, (y, written) ∈ table ∧ escapeLetter table y = written) ∨
      (y ∉ table.map Prod.fst ∧ escapeLetter table y = [y]) := by
  by_cases key : y ∈ table.map Prod.fst
  · obtain ⟨written, found⟩ : ∃ written, table.lookup y = some written := by
      cases found : table.lookup y with
      | some written => exact ⟨written, rfl⟩
      | none =>
          obtain ⟨entry, member, same⟩ := List.mem_map.mp key
          have := List.lookup_eq_none_iff.mp found entry member
          simp [same] at this
    obtain ⟨front, back, split, _⟩ := List.lookup_eq_some_iff.mp found
    exact Or.inl ⟨written, by rw [split]; simp, by rw [escapeLetter, found]; rfl⟩
  · exact Or.inr ⟨key, escapeLetter_literal key⟩

omit [DecidableEq α] in
/-- Another word of the table does not start with the first one, whatever follows it. -/
theorem Marked.not_prefix (marked : Marked mark ((x, word) :: table)) {written : List α}
    (member : (y, written) ∈ table) (rest : List α) : ¬ word <+: written ++ rest := by
  intro here
  obtain ⟨apart, other⟩ := (List.pairwise_cons.mp marked.apart).1 _ member
  rcases List.prefix_or_prefix_of_prefix here (List.prefix_append written rest) with le | le
  · exact apart le
  · exact other le

/-- The image of another letter of the table is passed as it is. -/
theorem Marked.replaceWord_written (marked : Marked mark ((x, word) :: table))
    {written : List α} (member : (y, written) ∈ table) (rest : List α) :
    replaceWord word substitute 0 (written ++ rest) =
      written ++ replaceWord word substitute 0 rest := by
  have absent := marked.not_prefix member rest
  obtain ⟨first, begins, _⟩ := marked.start _ List.mem_cons_self
  obtain ⟨tail, starts, free⟩ := marked.start _ (List.mem_cons_of_mem _ member)
  obtain rfl : written = mark :: tail := starts
  have start : word.head? = some mark := by rw [show word = mark :: first from begins]; rfl
  rw [List.cons_append] at absent ⊢
  rw [replaceWord_pass absent, replaceWord_keep start fun y inside => (free y inside).1]
  rfl

/-- Where the mark itself is escaped, undoing its word leaves the rest of the escaping. -/
theorem Marked.replaceWord_mark (marked : Marked mark ((mark, word) :: table))
    (text : List α) :
    replaceWord word [mark] 0 (escapeText ((mark, word) :: table) text) =
      escapeText table text := by
  obtain ⟨tail, begins, _⟩ := marked.start _ List.mem_cons_self
  obtain rfl : word = mark :: tail := begins
  have own : mark ∉ table.map Prod.fst := (List.nodup_cons.mp marked.keys).1
  induction text with
  | nil => rfl
  | cons y text ih =>
      simp only [escapeText_cons]
      by_cases same : y = mark
      · subst same
        rw [escapeLetter_self, replaceWord_here (List.cons_ne_nil y tail), ih,
          escapeLetter_literal own]
      · rw [escapeLetter_other same]
        rcases escapeLetter_cases table y with ⟨written, member, image⟩ | ⟨_, image⟩
        · rw [image, marked.replaceWord_written member, ih]
        · have kept : ∀ z ∈ [y], z ≠ mark := by
            intro z single
            rwa [List.mem_singleton.mp single]
          rw [image, replaceWord_keep rfl kept, ih]

/-- Letters that no word has at its start and the table does not escape come from themselves. -/
theorem Marked.prefix_of_escaped (marked : Marked mark table) {front : List α}
    (plain : ∀ x ∈ front, x ≠ mark ∧ x ∉ table.map Prod.fst)
    (here : front <+: escapeText table text) : front <+: text := by
  induction front generalizing text with
  | nil => exact List.nil_prefix
  | cons x front ih =>
      cases text with
      | nil => exact absurd (List.prefix_nil.mp here) (List.cons_ne_nil _ _)
      | cons y text =>
          rw [escapeText_cons] at here
          rcases escapeLetter_cases table y with ⟨written, member, image⟩ | ⟨_, image⟩
          · obtain ⟨tail, starts, _⟩ := marked.start _ member
            rw [image, show written = mark :: tail from starts, List.cons_append,
              List.cons_prefix_cons] at here
            exact absurd here.1 (plain x List.mem_cons_self).1
          · rw [image, List.singleton_append, List.cons_prefix_cons] at here
            exact List.cons_prefix_cons.mpr
              ⟨here.1, ih (fun z later => plain z (List.mem_cons_of_mem x later)) here.2⟩

/-- Undoing a word other than the mark's leaves the rest of the escaping, of a text in which the
literal occurrences of the word have been replaced too. -/
theorem Marked.replaceWord_escaped (marked : Marked mark ((x, word) :: table)) (ne : x ≠ mark)
    (free : mark ∉ table.map Prod.fst) (text : List α) :
    replaceWord word [x] 0 (escapeText ((x, word) :: table) text) =
      escapeText table (replaceWord word [x] 0 text) := by
  obtain ⟨tail, begins, plain⟩ := marked.start _ List.mem_cons_self
  obtain rfl : word = mark :: tail := begins
  have own : x ∉ table.map Prod.fst := (List.nodup_cons.mp marked.keys).1
  have start : (mark :: tail).head? = some mark := rfl
  have literal : ∀ z ∈ mark :: tail, z ∉ ((x, mark :: tail) :: table).map Prod.fst := by
    intro z inside
    rcases List.mem_cons.mp inside with rfl | later
    · intro key
      exact (List.mem_cons.mp key).elim (fun same => ne same.symm) free
    · exact (plain z later).2
  induction size : text.length using Nat.strong_induction_on generalizing text with
  | _ n ih =>
      by_cases here : mark :: tail <+: text
      · obtain ⟨rest, rfl⟩ := here
        have shorter : rest.length < n := by
          rw [← size, List.length_append, List.length_cons]
          omega
        rw [escapeText_append, escapeText_literal literal,
          replaceWord_here (List.cons_ne_nil _ _), replaceWord_here (List.cons_ne_nil _ _),
          ih _ shorter rest rfl, escapeText_append, List.singleton_append, escapeText_cons,
          escapeLetter_literal own]
        rfl
      · cases text with
        | nil => rfl
        | cons y rest =>
            have shorter : rest.length < n := by rw [← size, List.length_cons]; omega
            rw [replaceWord_pass here]
            simp only [escapeText_cons]
            by_cases same : y = x
            · subst same
              rw [escapeLetter_self, replaceWord_here (List.cons_ne_nil _ _),
                ih _ shorter rest rfl, escapeLetter_literal own]
            · rw [escapeLetter_other same]
              rcases escapeLetter_cases table y with ⟨written, member, image⟩ | ⟨_, image⟩
              · rw [image, marked.replaceWord_written member, ih _ shorter rest rfl]
              · have absent : ¬ mark :: tail <+: y :: escapeText ((x, mark :: tail) :: table) rest := by
                  intro occurs
                  obtain ⟨rfl, inner⟩ := List.cons_prefix_cons.mp occurs
                  exact here (List.cons_prefix_cons.mpr
                    ⟨rfl, marked.prefix_of_escaped (fun z inside => plain z inside) inner⟩)
                rw [image, List.singleton_append, replaceWord_pass absent, ih _ shorter rest rfl,
                  List.singleton_append]

theorem unescapeText_cons (entry : α × List α) (table : List (α × List α)) (text : List α) :
    unescapeText (entry :: table) text =
      unescapeText table (replaceWord entry.2 [entry.1] 0 text) := rfl

/-- Undoing an escaping is undoing its other words in the text itself. -/
theorem Marked.unescape_escape (marked : Marked mark table) (free : mark ∉ table.map Prod.fst)
    (text : List α) : unescapeText table (escapeText table text) = unescapeText table text := by
  induction table generalizing text with
  | nil => exact escapeText_empty text
  | cons entry table ih =>
      obtain ⟨x, word⟩ := entry
      have outside : mark ≠ x ∧ mark ∉ table.map Prod.fst := by
        simpa only [List.map_cons, List.mem_cons, not_or] using free
      calc
        _ = unescapeText table
            (replaceWord word [x] 0 (escapeText ((x, word) :: table) text)) :=
          unescapeText_cons _ _ _
        _ = unescapeText table (escapeText table (replaceWord word [x] 0 text)) := by
          rw [marked.replaceWord_escaped outside.1.symm outside.2]
        _ = _ := ih marked.tail outside.2 _

theorem Marked.unescape_mark (marked : Marked mark ((mark, word) :: table)) (text : List α) :
    unescapeText ((mark, word) :: table) (escapeText ((mark, word) :: table) text) =
      unescapeText table text :=
  calc
    _ = unescapeText table (escapeText table text) :=
      congrArg (unescapeText table) (marked.replaceWord_mark text)
    _ = _ := marked.tail.unescape_escape (List.nodup_cons.mp marked.keys).1 text

/-- A text without the words stays as it is. -/
theorem unescape_of_absent (absent : ∀ entry ∈ table, ¬ entry.2 <:+: text) :
    unescapeText table text = text := by
  induction table with
  | nil => rfl
  | cons entry table ih =>
      rw [unescapeText_cons, replaceWord_of_absent (absent entry List.mem_cons_self)]
      exact ih fun other later => absent other (List.mem_cons_of_mem entry later)

/-- Undoing an escaping shortens every text that has one of the words. -/
theorem length_unescape (long : ∀ entry ∈ table, 1 < entry.2.length) (text : List α) :
    (unescapeText table text).length ≤ text.length ∧
      (text.length ≤ (unescapeText table text).length → ∀ entry ∈ table, ¬ entry.2 <:+: text) := by
  induction table generalizing text with
  | nil => exact ⟨Nat.le_refl _, fun _ entry member => absurd member List.not_mem_nil⟩
  | cons entry table ih =>
      have shorter : [entry.1].length < entry.2.length := long entry List.mem_cons_self
      obtain ⟨le, none⟩ := ih (fun other later => long other (List.mem_cons_of_mem entry later))
        (replaceWord entry.2 [entry.1] 0 text)
      have first := (length_replaceWord shorter text).1
      refine ⟨Nat.le_trans le first, fun same => ?_⟩
      have absent := absent_of_length shorter (Nat.le_trans same le)
      have kept : replaceWord entry.2 [entry.1] 0 text = text := replaceWord_of_absent absent
      rw [unescapeText_cons, kept] at same
      rw [kept] at none
      intro other member
      rcases List.mem_cons.mp member with rfl | later
      · exact absent
      · exact none same other later

end AdCoder.Foundation
