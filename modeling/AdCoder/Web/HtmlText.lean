import AdCoder.Foundation.RegexLaws
import AdCoder.Foundation.WordReplace

/-!
# The text of a page

A text has one character for each code unit. A surrogate is no character; the first characters
past the basic plane stand for the surrogates, in their order. No pattern below tells them from
other letters. Decoding throws where a numeric reference is past the last code point.
-/

namespace AdCoder.Web

open Foundation

/-- A text by its code units. -/
abbrev Units := List Char

/-- The character that stands for a code unit. -/
def unitChar (unit : Nat) : Char :=
  if 0xd800 ≤ unit ∧ unit ≤ 0xdfff then Char.ofNat (0x10000 + (unit - 0xd800))
  else Char.ofNat unit

/-- `String.fromCodePoint`, which throws past the last code point. -/
def fromCodePoint (code : Nat) : Option Units :=
  if code ≤ 0xffff then some [unitChar code]
  else if code ≤ 0x10ffff then
    some [unitChar (0xd800 + (code - 0x10000) / 0x400), unitChar (0xdc00 + (code - 0x10000) % 0x400)]
  else none

/-- The digits of a numeric reference `&#(\d+);` at the start of a text. -/
def numericAt : Units → Option Units
  | '&' :: '#' :: rest =>
      match rest.takeWhile Regex.isDigit, rest.dropWhile Regex.isDigit with
      | digit :: digits, ';' :: _ => some (digit :: digits)
      | _, _ => none
  | _ => none

def decimalValue (digits : Units) : Nat :=
  digits.foldl (fun value digit => 10 * value + (digit.toNat - '0'.toNat)) 0

/-- The global replacement of numeric references. The counter says how many letters of the last
one are still to be passed. -/
def decodeNumeric : Nat → Units → Option Units
  | _, [] => some []
  | skip + 1, _ :: rest => decodeNumeric skip rest
  | 0, x :: rest =>
      match numericAt (x :: rest) with
      | some digits => do
          let decoded ← fromCodePoint (decimalValue digits)
          let later ← decodeNumeric (digits.length + 2) rest
          return decoded ++ later
      | none => do
          let later ← decodeNumeric 0 rest
          return x :: later

/-- The entities in the order in which they are decoded. -/
def entities : List (Char × Units) :=
  [('&', ['&', 'a', 'm', 'p', ';']), ('<', ['&', 'l', 't', ';']), ('>', ['&', 'g', 't', ';']),
    ('"', ['&', 'q', 'u', 'o', 't', ';']), ('\'', ['&', '#', '3', '9', ';'])]

def decodeNamed (value : Units) : Units := unescapeText entities value

def decodeHtml (value : Units) : Option Units := decodeNumeric 0 (decodeNamed value)

/-- An element with a body that is no text. -/
def blockElement (name : String) : Regex :=
  Regex.sequence [Regex.literal "<", Regex.literalI name, Regex.wordBoundary,
    Regex.star (.one (· != '>')), Regex.literal ">", .rep false 0 none (.one fun _ => true),
    Regex.literal "</", Regex.literalI name, Regex.literal ">"]

def tag : Regex := Regex.sequence [Regex.literal "<", Regex.plus (.one (· != '>')), Regex.literal ">"]

/-- Write a space for each match. -/
def blankMatches (pattern : Regex) (text : Units) : Units :=
  Regex.replaceFrom pattern [' '] (text.length + 1) ⟨[], text⟩

def stripTags (html : Units) : Units :=
  blankMatches tag (blankMatches (blockElement "style") (blankMatches (blockElement "script") html))

/-- Write one space for each run of white space. -/
def collapseSpaces : Bool → Units → Units
  | _, [] => []
  | inside, x :: rest =>
      if Regex.isSpace x then
        if inside then collapseSpaces true rest else ' ' :: collapseSpaces true rest
      else x :: collapseSpaces false rest

def htmlToText (html : Units) (maxChars : Nat) : Option Units := do
  let decoded ← decodeHtml (stripTags html)
  return (trimList (collapseSpaces false decoded)).take maxChars

/-- Every numeric reference that is left after the named entities is a code point. -/
def InRange (text : Units) : Prop :=
  ∀ back digits, back <:+ decodeNamed text → numericAt back = some digits →
    decimalValue digits ≤ 0x10ffff

/-- A text without the entities that escaping it would hide. -/
def Plain (text : Units) : Prop :=
  (∀ entity ∈ entities.tail, ¬ entity.2 <:+: text) ∧ ∀ back, back <:+ text → numericAt back = none

/-- The only white space of a text is single inner spaces. -/
def InnerSpaces (text : Units) : Prop :=
  (∀ x ∈ text, Regex.isSpace x = true → x = ' ') ∧ text.head? ≠ some ' ' ∧
    text.getLast? ≠ some ' ' ∧ ¬ [' ', ' '] <:+: text

instance (text : Units) : Decidable (InnerSpaces text) :=
  @instDecidableAnd _ _ (List.decidableBAll _ text) inferInstance

/-! ## Numeric references -/

variable {text rest digits decoded : Units} {x : Char} {code : Nat}

theorem fromCodePoint_none : fromCodePoint code = none ↔ 0x10ffff < code := by
  unfold fromCodePoint
  split_ifs
  all_goals simp
  all_goals omega

theorem length_fromCodePoint (found : fromCodePoint code = some decoded) : decoded.length ≤ 2 := by
  unfold fromCodePoint at found
  split_ifs at found
  all_goals
    obtain rfl := Option.some.inj found
    simp

/-- The shape of a numeric reference. -/
theorem numericAt_shape (found : numericAt text = some digits) :
    ∃ rest, text = '&' :: '#' :: digits ++ ';' :: rest ∧ digits ≠ [] ∧
      ∀ x ∈ digits, Regex.isDigit x = true := by
  unfold numericAt at found
  split at found
  · next rest =>
      split at found
      · next digit later back front after =>
          obtain rfl := Option.some.inj found
          refine ⟨back, ?_, List.cons_ne_nil _ _, ?_⟩
          · rw [← after, ← front, List.cons_append, List.cons_append, List.takeWhile_append_dropWhile]
          · rw [← front]
            intro x inside
            exact List.mem_takeWhile_imp inside
      · cases found
  · cases found

/-- A numeric reference has no ampersand after its first letter. -/
theorem numericAt_free (found : numericAt text = some digits) :
    ∀ x ∈ '#' :: digits ++ [';'], x ≠ '&' := by
  obtain ⟨_, _, _, numeric⟩ := numericAt_shape found
  rintro x inside rfl
  simp only [List.cons_append, List.mem_cons, List.mem_append, List.not_mem_nil, or_false] at inside
  rcases inside with hash | digit | semicolon
  · exact absurd hash (by decide)
  · exact absurd (numeric _ digit) (by decide)
  · exact absurd semicolon (by decide)

/-- No reference starts among letters other than ampersands. -/
theorem suffix_of_numericAt {passed back : Units} (free : ∀ x ∈ passed, x ≠ '&')
    (suffix : back <:+ passed ++ rest) (found : numericAt back = some digits) : back <:+ rest := by
  induction passed with
  | nil => exact suffix
  | cons y passed ih =>
      rcases List.suffix_cons_iff.mp suffix with rfl | inner
      · obtain ⟨_, shape, _⟩ := numericAt_shape found
        exact absurd (List.cons.inj shape).1 (free y List.mem_cons_self)
      · exact ih (fun z later => free z (List.mem_cons_of_mem y later)) inner

theorem decodeNumeric_skip (passed : Units) :
    decodeNumeric passed.length (passed ++ rest) = decodeNumeric 0 rest := by
  induction passed with
  | nil => rfl
  | cons x passed ih => exact ih

theorem decodeNumeric_here (found : numericAt ('&' :: '#' :: digits ++ ';' :: rest) = some digits) :
    decodeNumeric 0 ('&' :: '#' :: digits ++ ';' :: rest) =
      (fromCodePoint (decimalValue digits)).bind fun first =>
        (decodeNumeric 0 rest).map (first ++ ·) := by
  have skipped : decodeNumeric (digits.length + 2) ('#' :: digits ++ ';' :: rest) =
      decodeNumeric 0 rest := by
    have passed := @decodeNumeric_skip rest ('#' :: digits ++ [';'])
    simp only [List.length_append, List.length_cons, List.length_nil, List.append_assoc,
      List.cons_append, List.nil_append] at passed
    exact passed
  simp only [List.cons_append] at found skipped ⊢
  rw [decodeNumeric, found]
  simp only [skipped]
  cases fromCodePoint (decimalValue digits) with
  | none => rfl
  | some first =>
      cases decodeNumeric 0 rest with
      | none => rfl
      | some later => rfl

theorem decodeNumeric_pass (absent : numericAt (x :: rest) = none) :
    decodeNumeric 0 (x :: rest) = (decodeNumeric 0 rest).map (x :: ·) := by
  rw [decodeNumeric, absent]
  cases decodeNumeric 0 rest with
  | none => rfl
  | some later => rfl

/-- Decoding fails exactly at a reference past the last code point. -/
theorem decodeNumeric_none (text : Units) :
    decodeNumeric 0 text = none ↔
      ∃ back digits, back <:+ text ∧ numericAt back = some digits ∧
        0x10ffff < decimalValue digits := by
  induction size : text.length using Nat.strong_induction_on generalizing text with
  | _ n ih =>
      cases text with
      | nil =>
          refine iff_of_false (by simp [decodeNumeric]) ?_
          rintro ⟨back, digits, suffix, found, _⟩
          obtain rfl := List.suffix_nil.mp suffix
          cases found
      | cons x rest =>
          cases at_head : numericAt (x :: rest) with
          | none =>
              rw [decodeNumeric_pass at_head, Option.map_eq_none_iff,
                ih rest.length (by simp at size; omega) rest rfl]
              constructor
              · rintro ⟨back, digits, suffix, found⟩
                exact ⟨back, digits, suffix.trans (List.suffix_cons x rest), found⟩
              · rintro ⟨back, digits, suffix, found, far⟩
                rcases List.suffix_cons_iff.mp suffix with rfl | inner
                · rw [at_head] at found
                  cases found
                · exact ⟨back, digits, inner, found, far⟩
          | some digits =>
              obtain ⟨later, shape, _⟩ := numericAt_shape at_head
              rw [shape] at size at_head ⊢
              rw [decodeNumeric_here at_head, Option.bind_eq_none_iff]
              have shorter : later.length < n := by
                simp only [List.length_cons, List.length_append] at size
                omega
              have tail := ih later.length shorter later rfl
              by_cases far : 0x10ffff < decimalValue digits
              · refine iff_of_true (fun first found => ?_) ⟨_, digits, List.suffix_rfl, at_head, far⟩
                rw [fromCodePoint_none.mpr far] at found
                cases found
              · obtain ⟨first, code⟩ : ∃ first, fromCodePoint (decimalValue digits) = some first :=
                  Option.ne_none_iff_exists'.mp (mt fromCodePoint_none.mp far)
                simp only [code, Option.some.injEq, forall_eq', Option.map_eq_none_iff]
                rw [tail]
                constructor
                · rintro ⟨back, inner, suffix, found⟩
                  refine ⟨back, inner, suffix.trans ?_, found⟩
                  exact ⟨'&' :: '#' :: digits ++ [';'], by simp⟩
                · rintro ⟨back, inner, suffix, found, past⟩
                  rcases List.suffix_cons_iff.mp suffix with rfl | within
                  · obtain rfl : digits = inner := Option.some.inj (at_head.symm.trans found)
                    exact absurd past far
                  · refine ⟨back, inner, suffix_of_numericAt (numericAt_free at_head) ?_ found,
                      found, past⟩
                    simpa using within

theorem decodeHtml_none (value : Units) : decodeHtml value = none ↔ ¬ InRange value := by
  rw [decodeHtml, decodeNumeric_none]
  simp only [InRange, not_forall, not_le, exists_prop]

end AdCoder.Web
