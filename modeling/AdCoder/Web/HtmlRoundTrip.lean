import AdCoder.Web.HtmlText

/-!
# Decoding what was escaped

The text of an escaped string is the string itself, unless the string has the text of an entity
other than the first one. Every decoding of such a text shortens it.
-/

namespace AdCoder.Web

open Foundation

variable {text rest decoded : Units} {x : Char}

/-! ## Decoding shortens -/

theorem decodeNumeric_plain (plain : ∀ back, back <:+ text → numericAt back = none) :
    decodeNumeric 0 text = some text := by
  induction text with
  | nil => rfl
  | cons x rest ih =>
      rw [decodeNumeric_pass (plain _ List.suffix_rfl),
        ih fun back suffix => plain back (suffix.trans (List.suffix_cons x rest))]
      rfl

/-- Decoding shortens every text with a numeric reference. -/
theorem length_decodeNumeric (found : decodeNumeric 0 text = some decoded) :
    decoded.length ≤ text.length ∧
      (text.length ≤ decoded.length → ∀ back, back <:+ text → numericAt back = none) := by
  induction size : text.length using Nat.strong_induction_on generalizing text decoded with
  | _ n ih =>
      cases text with
      | nil =>
          obtain rfl := Option.some.inj found
          refine ⟨Nat.zero_le _, fun _ back suffix => ?_⟩
          rw [List.suffix_nil.mp suffix]
          rfl
      | cons x rest =>
          cases at_head : numericAt (x :: rest) with
          | none =>
              rw [decodeNumeric_pass at_head] at found
              obtain ⟨later, tail, rfl⟩ := Option.map_eq_some_iff.mp found
              simp only [List.length_cons] at size ⊢
              obtain ⟨le, none⟩ := ih rest.length (by omega) tail rfl
              refine ⟨by omega, fun same back suffix => ?_⟩
              rcases List.suffix_cons_iff.mp suffix with rfl | inner
              · exact at_head
              · exact none (by omega) back inner
          | some digits =>
              obtain ⟨back, shape, some, _⟩ := numericAt_shape at_head
              rw [shape] at size at_head found
              rw [decodeNumeric_here at_head] at found
              obtain ⟨first, code, joined⟩ := Option.bind_eq_some_iff.mp found
              obtain ⟨later, tail, rfl⟩ := Option.map_eq_some_iff.mp joined
              have two := length_fromCodePoint code
              have one := List.length_pos_iff.mpr some
              simp only [List.length_append, List.length_cons] at size ⊢
              have le := (ih back.length (by omega) tail rfl).1
              exact ⟨by omega, fun same => absurd same (by omega)⟩

/-! ## White space -/

theorem length_collapseSpaces (inside : Bool) (text : Units) :
    (collapseSpaces inside text).length ≤ text.length := by
  induction text generalizing inside with
  | nil => exact Nat.zero_le _
  | cons x rest ih =>
      rw [collapseSpaces]
      split_ifs
      · exact Nat.le_succ_of_le (ih true)
      · exact Nat.succ_le_succ (ih true)
      · exact Nat.succ_le_succ (ih false)

/-- The only white space that is left is spaces. -/
theorem space_of_collapse {inside : Bool} (member : x ∈ collapseSpaces inside text)
    (blank : Regex.isSpace x = true) : x = ' ' := by
  induction text generalizing inside with
  | nil => cases member
  | cons y rest ih =>
      rw [collapseSpaces] at member
      split_ifs at member with space within
      · exact ih member
      · rcases List.mem_cons.mp member with rfl | later
        · rfl
        · exact ih later
      · rcases List.mem_cons.mp member with rfl | later
        · exact absurd blank space
        · exact ih later

theorem length_trimList (text : Units) : (trimList text).length ≤ text.length := by
  rw [trimList, List.length_reverse]
  calc
    _ ≤ (text.dropWhile Regex.isSpace).reverse.length := (List.dropWhile_sublist _).length_le
    _ ≤ text.length := by
      rw [List.length_reverse]
      exact (List.dropWhile_sublist _).length_le

theorem collapseSpaces_eq_self (space : ∀ x ∈ text, Regex.isSpace x = true → x = ' ')
    (single : ¬ [' ', ' '] <:+: text) (inside : Bool)
    (start : inside = true → text.head? ≠ some ' ') : collapseSpaces inside text = text := by
  induction text generalizing inside with
  | nil => rfl
  | cons x rest ih =>
      have later := ih (fun y member => space y (List.mem_cons_of_mem x member))
        (fun pair => single (pair.trans (List.suffix_cons x rest).isInfix))
      rw [collapseSpaces]
      split_ifs with blank within
      · obtain rfl := space x List.mem_cons_self blank
        exact absurd rfl (start within)
      · obtain rfl := space x List.mem_cons_self blank
        rw [later true fun _ next => ?_]
        obtain ⟨tail, rfl⟩ := List.head?_eq_some_iff.mp next
        exact single ⟨[], tail, rfl⟩
      · rw [later false (by simp)]

theorem trimList_eq_self_of_ends (front : ∀ x ∈ text.head?, Regex.isSpace x = false)
    (back : ∀ x ∈ text.getLast?, Regex.isSpace x = false) : trimList text = text := by
  have kept {word : Units} (start : ∀ x ∈ word.head?, Regex.isSpace x = false) :
      word.dropWhile Regex.isSpace = word := by
    cases word with
    | nil => rfl
    | cons x rest => rw [List.dropWhile_cons_of_neg (by simp [start x rfl])]
  rw [trimList, kept front, kept (by rwa [List.head?_reverse]), List.reverse_reverse]

theorem InnerSpaces.kept (inner : InnerSpaces text) :
    trimList (collapseSpaces false text) = text := by
  obtain ⟨space, front, back, single⟩ := inner
  rw [collapseSpaces_eq_self space single false (by simp)]
  apply trimList_eq_self_of_ends
  · intro x first
    by_contra blank
    rw [Bool.not_eq_false] at blank
    obtain rfl := space x (List.mem_of_mem_head? first) blank
    exact front first
  · intro x last
    by_contra blank
    rw [Bool.not_eq_false] at blank
    obtain rfl := space x (List.mem_of_mem_getLast? last) blank
    exact back last

/-! ## Tags -/

/-- A pattern that starts with a letter the text does not have matches nowhere. -/
theorem blankMatches_eq_self {parts : List Regex} (free : '<' ∉ text) :
    blankMatches (Regex.sequence (Regex.literal "<" :: parts)) text = text := by
  have none {c : Cursor} (after : '<' ∉ c.after) :
      (Regex.sequence (Regex.literal "<" :: parts)).ends c = [] := by
    refine List.flatMap_eq_nil_iff.mpr fun e first => ?_
    obtain ⟨starts, _⟩ := Regex.reaches_literal first
    rw [starts] at after
    exact absurd (List.mem_cons_self : '<' ∈ '<' :: e.after) after
  have scanned (fuel : Nat) (c : Cursor) (after : '<' ∉ c.after) :
      Regex.replaceFrom (Regex.sequence (Regex.literal "<" :: parts)) [' '] fuel c = c.after := by
    induction fuel generalizing c with
    | zero => rfl
    | succ fuel ih =>
        rw [Regex.replaceFrom, none after]
        obtain ⟨before, rest⟩ := c
        cases rest with
        | nil => rfl
        | cons x rest =>
            exact congrArg (x :: ·) (ih _ fun later => after (List.mem_cons_of_mem x later))
  exact scanned _ _ free

theorem stripTags_eq_self (free : '<' ∉ text) : stripTags text = text := by
  have block (name : String) : blankMatches (blockElement name) text = text :=
    blankMatches_eq_self free
  rw [stripTags, block, block]
  exact blankMatches_eq_self free

/-! ## Escaped texts -/

theorem marked_entities : Marked '&' entities where
  start := by
    intro entry member
    simp only [entities, List.mem_cons, List.not_mem_nil, or_false] at member
    rcases member with rfl | rfl | rfl | rfl | rfl
    all_goals exact ⟨_, rfl, by simp [entities]⟩
  apart := by decide
  keys := by decide

theorem escapeText_free (text : Units) : '<' ∉ escapeText entities text := by
  intro inside
  obtain ⟨x, _, written⟩ := List.mem_flatMap.mp inside
  rcases escapeLetter_cases entities x with ⟨word, member, image⟩ | ⟨literal, image⟩
  · rw [image] at written
    have free : ∀ entry ∈ entities, '<' ∉ entry.2 := by decide
    exact free _ member written
  · rw [image] at written
    obtain rfl := List.mem_singleton.mp written
    exact literal (by decide)

/-- The text of an escaped string is what the other entities leave of it. -/
theorem htmlToText_escape (text : Units) (maxChars : Nat) :
    htmlToText (escapeText entities text) maxChars =
      (decodeNumeric 0 (unescapeText entities.tail text)).map fun decoded =>
        (trimList (collapseSpaces false decoded)).take maxChars := by
  have named : decodeNamed (escapeText entities text) = unescapeText entities.tail text :=
    marked_entities.unescape_mark text
  rw [htmlToText, stripTags_eq_self (escapeText_free text), decodeHtml, named]
  cases decodeNumeric 0 (unescapeText entities.tail text) with
  | none => rfl
  | some decoded => rfl

/-- An escaped text that is decoded to its full length is plain. -/
theorem plain_of_length (found : decodeNumeric 0 (unescapeText entities.tail text) = some decoded)
    (same : text.length ≤ decoded.length) : Plain text := by
  have long : ∀ entry ∈ entities.tail, 1 < entry.2.length := by decide
  obtain ⟨le, none⟩ := length_unescape long text
  obtain ⟨le', none'⟩ := length_decodeNumeric found
  have absent := none (by omega)
  have kept := unescape_of_absent absent
  rw [kept] at none'
  exact ⟨absent, none' same⟩

/-- The string itself is read back under every limit exactly if it is plain. -/
theorem roundTrip_iff (inner : InnerSpaces text) :
    (∀ maxChars, 0 < maxChars →
      htmlToText (escapeText entities text) maxChars = some (text.take maxChars)) ↔
        Plain text := by
  constructor
  · intro all
    have whole := all (text.length + 1) (Nat.succ_pos _)
    rw [htmlToText_escape, List.take_of_length_le (Nat.le_succ _)] at whole
    obtain ⟨decoded, found, kept⟩ := Option.map_eq_some_iff.mp whole
    refine plain_of_length found ?_
    calc
      text.length = ((trimList (collapseSpaces false decoded)).take (text.length + 1)).length := by
        rw [kept]
      _ ≤ (trimList (collapseSpaces false decoded)).length := List.length_take_le' _ _
      _ ≤ (collapseSpaces false decoded).length := length_trimList _
      _ ≤ decoded.length := length_collapseSpaces _ _
  · rintro ⟨absent, none⟩ maxChars _
    rw [htmlToText_escape, unescape_of_absent absent, decodeNumeric_plain none, Option.map_some,
      inner.kept]

end AdCoder.Web
