import AdCoder.Foundation.Json
import Mathlib.Data.List.TakeWhile

/-!
# The tokens of a JSON text

A text that is read as a JSON value is a sequence of marks and string literals
whose braces are balanced. Outside a string literal a text has no quote and no
backslash, so reading such a text from inside one of its literals takes the
marks between two literals for the text of a string.
-/

namespace AdCoder.Foundation.JsonText

/-! ## Tokens -/

/-- White space of JSON. -/
def isBlank (x : Char) : Bool := x == ' ' || x == '\t' || x == '\n' || x == '\r'

/-- A character that stands outside string literals. -/
def isMark (x : Char) : Bool :=
  isBlank x || isNumeral x || "{}[]:,truefalsn".toList.contains x

/-- The text between the quotes of a literal: each backslash takes one more character. -/
inductive Body : List Char → Prop where
  | nil : Body []
  | plain {x : Char} {rest : List Char} (quote : x ≠ '"') (backslash : x ≠ '\\')
      (body : Body rest) : Body (x :: rest)
  | escape {x : Char} {rest : List Char} (body : Body rest) : Body ('\\' :: x :: rest)

inductive Token where
  | mark (x : Char)
  | literal (body : List Char)

namespace Token

def chars : Token → List Char
  | .mark x => [x]
  | .literal body => '"' :: body ++ ['"']

def Valid : Token → Prop
  | .mark x => isMark x = true
  | .literal body => Body body

end Token

def charsOf (tokens : List Token) : List Char := tokens.flatMap Token.chars

/-- Valid tokens in which every brace that opens is closed. -/
inductive Balanced : List Token → Prop where
  | nil : Balanced []
  | token {t : Token} (valid : t.Valid) (opens : t ≠ .mark '{') (closes : t ≠ .mark '}') :
      Balanced [t]
  | append {front back : List Token} (first : Balanced front) (second : Balanced back) :
      Balanced (front ++ back)
  | braces {inner : List Token} (balanced : Balanced inner) :
      Balanced (.mark '{' :: inner ++ [.mark '}'])

/-- A key is the text of one of the literals, as far as that has no escape. -/
def Names (tokens : List Token) (key : String) : Prop :=
  ∃ body, Token.literal body ∈ tokens ∧ ('\\' ∉ body → key = String.ofList body)

section Tokens

variable {x : Char} {word : List Char} {tokens front back : List Token}

@[simp] theorem charsOf_nil : charsOf [] = [] := rfl

@[simp] theorem charsOf_append : charsOf (front ++ back) = charsOf front ++ charsOf back :=
  List.flatMap_append

@[simp] theorem charsOf_mark_cons : charsOf (.mark x :: tokens) = x :: charsOf tokens := rfl

@[simp] theorem charsOf_literal_cons :
    charsOf (.literal word :: tokens) = '"' :: (word ++ '"' :: charsOf tokens) := by
  simp [charsOf, Token.chars]

@[simp] theorem charsOf_marks : charsOf (word.map .mark) = word := by
  induction word with
  | nil => rfl
  | cons x rest ih => rw [List.map_cons, charsOf_mark_cons, ih]

theorem Balanced.marks (marks : ∀ x ∈ word, isMark x = true)
    (flat : ∀ x ∈ word, x ≠ '{' ∧ x ≠ '}') : Balanced (word.map .mark) := by
  induction word with
  | nil => exact .nil
  | cons x rest ih =>
      obtain ⟨opens, closes⟩ := flat x List.mem_cons_self
      have first : Balanced [Token.mark x] := .token (marks x List.mem_cons_self)
        (fun same => opens (Token.mark.inj same)) (fun same => closes (Token.mark.inj same))
      exact first.append (ih (fun y later => marks y (List.mem_cons_of_mem _ later))
        fun y later => flat y (List.mem_cons_of_mem _ later))

theorem Balanced.valid (balanced : Balanced tokens) : ∀ t ∈ tokens, t.Valid := by
  induction balanced with
  | nil => simp
  | token valid _ _ => simpa using valid
  | append _ _ first second =>
      intro t member
      exact (List.mem_append.mp member).elim (first t) (second t)
  | braces _ ih =>
      intro t member
      rcases List.mem_append.mp member with member | member
      · rcases List.mem_cons.mp member with rfl | member
        · rfl
        · exact ih t member
      · rw [List.mem_singleton.mp member]
        rfl

theorem Names.mono {key : String} (names : Names front key) (subset : front ⊆ tokens) :
    Names tokens key := by
  obtain ⟨body, member, reads⟩ := names
  exact ⟨body, subset member, reads⟩

end Tokens

/-! ## What the readers consume -/

section Readers

variable {text rest done : List Char} {fuel : Nat}

theorem hexValue?_plain {x : Char} {n : Nat} (hex : hexValue? x = some n) :
    x ≠ '"' ∧ x ≠ '\\' := by
  constructor
  · rintro rfl
    cases hex
  · rintro rfl
    cases hex

/-- The digits of a `\u` escape are plain characters. -/
theorem unit?_body {a b c d : Char} {n : Nat} (unit : unit? a b c d = some n) {word : List Char}
    (body : Body word) : Body ('\\' :: 'u' :: a :: b :: c :: d :: word) := by
  simp only [unit?, Option.bind_eq_bind, Option.bind_eq_some_iff] at unit
  obtain ⟨_, ha, _, hb, _, hc, _, hd, _⟩ := unit
  exact .escape (.plain (hexValue?_plain ha).1 (hexValue?_plain ha).2
    (.plain (hexValue?_plain hb).1 (hexValue?_plain hb).2
      (.plain (hexValue?_plain hc).1 (hexValue?_plain hc).2
        (.plain (hexValue?_plain hd).1 (hexValue?_plain hd).2 body))))

/-- The rest of a literal after the characters in `done`, and what stands behind it. -/
def ReadsLiteral (done text : List Char) (value : String) (rest : List Char) : Prop :=
  ∃ body, text = body ++ '"' :: rest ∧ Body body ∧
    ('\\' ∉ body → value = String.ofList (done.reverse ++ body))

theorem ReadsLiteral.escape {done' : List Char} {value : String}
    (read : ReadsLiteral done' text value rest) (unit : List Char) (backslash : '\\' ∈ unit)
    (body : ∀ {word}, Body word → Body (unit ++ word)) :
    ReadsLiteral done (unit ++ text) value rest := by
  obtain ⟨word, rfl, later, _⟩ := read
  refine ⟨unit ++ word, by rw [List.append_assoc], body later, ?_⟩
  intro free
  exact absurd (List.mem_append_left word backslash) free

/-- A string is read up to the quote that closes its literal. -/
theorem readString_literal {value : String}
    (read : readString fuel done text = some (value, rest)) :
    ReadsLiteral done text value rest := by
  fun_induction readString fuel done text with
  | case1 | case2 | case4 | case7 | case11 | case13 => cases read
  | case3 =>
      obtain ⟨rfl, rfl⟩ := Prod.mk.inj (Option.some.inj read)
      exact ⟨[], rfl, .nil, fun _ => by rw [List.append_nil]⟩
  | case5 fuel done a b c d high unit _ a' b' c' d' tail low unit' _ ih =>
      exact (ih read).escape ['\\', 'u', a, b, c, d, '\\', 'u', a', b', c', d']
        List.mem_cons_self fun later => unit?_body unit (unit?_body unit' later)
  | case6 fuel done a b c d high unit _ a' b' c' d' tail low _ _ ih =>
      exact (ih read).escape ['\\', 'u', a, b, c, d] List.mem_cons_self (unit?_body unit)
  | case8 fuel done a b c d rest' high unit _ _ ih =>
      exact (ih read).escape ['\\', 'u', a, b, c, d] List.mem_cons_self (unit?_body unit)
  | case9 fuel done a b c d rest' high unit _ _ ih =>
      exact (ih read).escape ['\\', 'u', a, b, c, d] List.mem_cons_self (unit?_body unit)
  | case10 fuel done a b c d rest' high unit _ _ ih =>
      exact (ih read).escape ['\\', 'u', a, b, c, d] List.mem_cons_self (unit?_body unit)
  | case12 fuel done x rest' _ y _ ih =>
      exact (ih read).escape ['\\', x] List.mem_cons_self .escape
  | case14 fuel done x rest' quote _ _ plain ih =>
      obtain ⟨body, rfl, later, reads⟩ := ih read
      refine ⟨x :: body, rfl, .plain quote (fun same => plain (.inl same)) later, ?_⟩
      intro free
      rw [reads fun member => free (List.mem_cons_of_mem x member)]
      simp

/-- What is skipped is white space. -/
theorem skip_split (text : List Char) :
    ∃ blank, text = blank ++ skip text ∧ (∀ x ∈ blank, isBlank x = true) := by
  refine ⟨text.takeWhile isBlank, ?_, ?_⟩
  · exact (List.takeWhile_append_dropWhile (p := isBlank) (l := text)).symm
  · intro x member
    exact List.mem_takeWhile_imp member

theorem balanced_blank {blank : List Char} (all : ∀ x ∈ blank, isBlank x = true) :
    Balanced (blank.map .mark) := by
  apply Balanced.marks
  · intro x member
    simp [isMark, all x member]
  · intro x member
    have space := all x member
    constructor
    · rintro rfl
      cases space
    · rintro rfl
      cases space

theorem mem_insert_keys {key name : String} {value : Json} {fields : List (String × Json)}
    (member : name ∈ (insert key value fields).map (·.1)) :
    name = key ∨ name ∈ fields.map (·.1) := by
  induction fields with
  | nil => exact .inl (by simpa [insert] using member)
  | cons field rest ih =>
      obtain ⟨k, v⟩ := field
      rw [insert] at member
      split_ifs at member with same
      · exact .inr (by simpa using member)
      · rw [List.map_cons] at member
        rcases List.mem_cons.mp member with rfl | later
        · exact .inr (by simp)
        · rcases ih later with rfl | later
          · exact .inl rfl
          · exact .inr (List.mem_cons_of_mem _ later)

/-- White space and one object, whose keys are among the literals. -/
def ObjectTokens (fields : List (String × Json)) (tokens : List Token) : Prop :=
  ∃ (blank : List Char) (inner : List Token),
    tokens = blank.map .mark ++ (.mark '{' :: inner ++ [.mark '}']) ∧
      (∀ x ∈ blank, isBlank x = true) ∧ Balanced inner ∧ ∀ key ∈ fields.map (·.1), Names inner key

/-- The tokens of a value, and of an object's text when it is one. -/
def ValueTokens (value : Json) (tokens : List Token) : Prop :=
  Balanced tokens ∧ ∀ fields, value = .obj fields → ObjectTokens fields tokens

theorem ValueTokens.flat {value : Json} {tokens : List Token} (balanced : Balanced tokens)
    (flat : ∀ fields, value ≠ .obj fields) : ValueTokens value tokens :=
  ⟨balanced, fun fields same => absurd same (flat fields)⟩

/-- The three readers consume tokens at this fuel. -/
def ReadsValues (format : NumberFormat) (fuel : Nat) : Prop :=
  ∀ {text rest : List Char} {value : Json}, readValue format fuel text = some (value, rest) →
    ∃ tokens, text = charsOf tokens ++ rest ∧ ValueTokens value tokens

def ReadsMembers (format : NumberFormat) (fuel : Nat) : Prop :=
  ∀ {done fields : List (String × Json)} {text rest : List Char},
    readMembers format fuel done text = some (fields, rest) →
      ∃ inner, text = charsOf inner ++ '}' :: rest ∧ Balanced inner ∧
        ∀ key ∈ fields.map (·.1), key ∈ done.map (·.1) ∨ Names inner key

def ReadsItems (format : NumberFormat) (fuel : Nat) : Prop :=
  ∀ {done items : List Json} {text rest : List Char},
    readItems format fuel done text = some (items, rest) →
      ∃ inner, text = charsOf inner ++ ']' :: rest ∧ Balanced inner

variable {format : NumberFormat}

/-- White space and a word of marks, without braces. -/
theorem balanced_word {blank word : List Char} (space : ∀ x ∈ blank, isBlank x = true)
    (marks : ∀ x ∈ word, isMark x = true) (flat : ∀ x ∈ word, x ≠ '{' ∧ x ≠ '}') :
    Balanced ((blank ++ word).map .mark) := by
  rw [List.map_append]
  exact (balanced_blank space).append (.marks marks flat)

theorem ReadsValues.step (members : ReadsMembers format fuel) (items : ReadsItems format fuel) :
    ReadsValues format (fuel + 1) := by
  intro text rest value read
  obtain ⟨blank, split, space⟩ := skip_split text
  have word {w : List Char} (shape : skip text = w ++ rest)
      (marks : w.all fun x => isMark x && x != '{' && x != '}')
      (other : ∀ fields, value ≠ .obj fields) :
      ∃ tokens, text = charsOf tokens ++ rest ∧ ValueTokens value tokens := by
    refine ⟨(blank ++ w).map .mark, ?_, .flat (balanced_word space ?_ ?_) other⟩
    · rw [charsOf_marks, List.append_assoc, ← shape]
      exact split
    all_goals
      intro x member
      have mark := List.all_eq_true.mp marks x member
      simp only [Bool.and_eq_true, bne_iff_ne] at mark
      simp [mark]
  rw [readValue] at read
  split at read
  · next tail shape =>
      obtain ⟨fields, inner, rfl, close, balanced, keys⟩ : ∃ fields inner, value = .obj fields ∧
          tail = charsOf inner ++ '}' :: rest ∧ Balanced inner ∧
            ∀ key ∈ fields.map (·.1), Names inner key := by
        split at read
        · next closing =>
            obtain ⟨rfl, rfl⟩ := Prod.mk.inj (Option.some.inj read)
            obtain ⟨gap, cut, empty⟩ := skip_split tail
            exact ⟨[], gap.map .mark, rfl, by rw [charsOf_marks, ← closing, ← cut],
              balanced_blank empty, by simp⟩
        · obtain ⟨⟨fields, after⟩, found, same⟩ := Option.map_eq_some_iff.mp read
          obtain ⟨rfl, rfl⟩ := Prod.mk.inj same
          obtain ⟨inner, close, balanced, keys⟩ := members found
          exact ⟨fields, inner, rfl, close, balanced,
            fun key member => (keys key member).resolve_left (by simp)⟩
      refine ⟨blank.map .mark ++ (.mark '{' :: inner ++ [.mark '}']), ?_, ?_, ?_⟩
      · rw [split, shape, close]
        simp
      · exact (balanced_blank space).append (.braces balanced)
      · rintro _ ⟨⟩
        exact ⟨blank, inner, rfl, space, balanced, keys⟩
  · next tail shape =>
      obtain ⟨found, inner, rfl, close, balanced⟩ : ∃ found inner, value = .arr found ∧
          tail = charsOf inner ++ ']' :: rest ∧ Balanced inner := by
        split at read
        · next closing =>
            obtain ⟨rfl, rfl⟩ := Prod.mk.inj (Option.some.inj read)
            obtain ⟨gap, cut, empty⟩ := skip_split tail
            exact ⟨[], gap.map .mark, rfl, by rw [charsOf_marks, ← closing, ← cut],
              balanced_blank empty⟩
        · obtain ⟨⟨found, after⟩, listed, same⟩ := Option.map_eq_some_iff.mp read
          obtain ⟨rfl, rfl⟩ := Prod.mk.inj same
          obtain ⟨inner, close, balanced⟩ := items listed
          exact ⟨found, inner, rfl, close, balanced⟩
      refine ⟨blank.map .mark ++ (.mark '[' :: (inner ++ [.mark ']'])), ?_, .flat ?_ (by simp)⟩
      · rw [split, shape, close]
        simp
      · apply (balanced_blank space).append
        have opens : Balanced [Token.mark '['] := .token rfl (by simp) (by simp)
        have closes : Balanced [Token.mark ']'] := .token rfl (by simp) (by simp)
        exact opens.append (balanced.append closes)
  · next tail shape =>
      obtain ⟨⟨literal, after⟩, found, same⟩ := Option.map_eq_some_iff.mp read
      obtain ⟨rfl, rfl⟩ := Prod.mk.inj same
      obtain ⟨body, rfl, valid, _⟩ := readString_literal found
      refine ⟨blank.map .mark ++ [.literal body], ?_, .flat ?_ (by simp)⟩
      · rw [split, shape]
        simp
      · exact (balanced_blank space).append (.token valid (by simp) (by simp))
  · next tail shape =>
      obtain ⟨rfl, rfl⟩ := Prod.mk.inj (Option.some.inj read)
      exact word (w := "true".toList) shape (by decide) (by simp)
  · next tail shape =>
      obtain ⟨rfl, rfl⟩ := Prod.mk.inj (Option.some.inj read)
      exact word (w := "false".toList) shape (by decide) (by simp)
  · next tail shape =>
      obtain ⟨rfl, rfl⟩ := Prod.mk.inj (Option.some.inj read)
      exact word (w := "null".toList) shape (by decide) (by simp)
  · simp only at read
    split_ifs at read
    obtain ⟨rfl, rfl⟩ := Prod.mk.inj (Option.some.inj read)
    apply word (w := (skip text).takeWhile isNumeral)
    · exact (List.prefix_iff_eq_append.mp (List.takeWhile_prefix isNumeral)).symm
    · apply List.all_eq_true.mpr
      intro x member
      have numeral := List.mem_takeWhile_imp member
      simp only [isMark, numeral, Bool.or_true, Bool.true_or, Bool.true_and, Bool.and_eq_true,
        bne_iff_ne]
      constructor
      · rintro rfl
        cases numeral
      · rintro rfl
        cases numeral
    · simp

/-- One member with the space around its parts, up to the mark behind it. -/
def memberTokens (blank body gap : List Char) (value : List Token) (pause : List Char) :
    List Token :=
  blank.map .mark ++ (.literal body :: (gap.map .mark ++ (.mark ':' :: (value ++ pause.map .mark))))

theorem memberTokens_balanced {blank body gap pause : List Char} {value : List Token}
    (before : ∀ x ∈ blank, isBlank x = true) (valid : Body body)
    (between : ∀ x ∈ gap, isBlank x = true) (balanced : Balanced value)
    (behind : ∀ x ∈ pause, isBlank x = true) :
    Balanced (memberTokens blank body gap value pause) := by
  have literal : Balanced [Token.literal body] := .token valid (by simp) (by simp)
  have colon : Balanced [Token.mark ':'] := .token rfl (by simp) (by simp)
  have last : Balanced (value ++ pause.map .mark) := balanced.append (balanced_blank behind)
  exact (balanced_blank before).append
    (literal.append ((balanced_blank between).append (colon.append last)))

/-- A member is read from its parts, and a comma or the closing brace stands behind it. -/
theorem readMembers_eq_some {fields done : List (String × Json)}
    (read : readMembers format (fuel + 1) done text = some (fields, rest)) :
    ∃ key value opened behind started after, skip text = '"' :: opened ∧
      readString fuel [] opened = some (key, behind) ∧ skip behind = ':' :: started ∧
      readValue format fuel started = some (value, after) ∧
      ((∃ more, skip after = ',' :: more ∧
          readMembers format fuel (insert key value done) more = some (fields, rest)) ∨
        (skip after = '}' :: rest ∧ fields = insert key value done)) := by
  rw [readMembers] at read
  split at read
  · next opened quote =>
      split at read
      · cases read
      · next key behind found =>
          split at read
          · next started colon =>
              split at read
              · cases read
              · next value after first =>
                  refine ⟨key, value, opened, behind, started, after, quote, found, colon, first,
                    ?_⟩
                  split at read
                  · next more comma => exact .inl ⟨more, comma, read⟩
                  · next tail close =>
                      obtain ⟨rfl, rfl⟩ := Prod.mk.inj (Option.some.inj read)
                      exact .inr ⟨close, rfl⟩
                  · cases read
          · cases read
  · cases read

theorem ReadsMembers.step (values : ReadsValues format fuel) (members : ReadsMembers format fuel) :
    ReadsMembers format (fuel + 1) := by
  intro done fields text rest read
  obtain ⟨key, value, opened, behind, started, after, quote, found, colon, first, last⟩ :=
    readMembers_eq_some read
  obtain ⟨blank, split, space⟩ := skip_split text
  obtain ⟨body, rfl, valid, reads⟩ := readString_literal found
  obtain ⟨gap, cut, empty⟩ := skip_split behind
  obtain ⟨tokens, rfl, balanced, -⟩ := values first
  obtain ⟨pause, part, idle⟩ := skip_split after
  have whole := memberTokens_balanced space valid empty balanced idle
  have names : Names (memberTokens blank body gap tokens pause) key :=
    ⟨body, by simp [memberTokens], by simpa using reads⟩
  have chars : text = charsOf (memberTokens blank body gap tokens pause) ++ skip after := by
    calc
      text = blank ++ '"' :: (body ++ '"' :: behind) := by
        rw [← quote]
        exact split
      _ = blank ++ '"' :: (body ++ '"' :: (gap ++ ':' :: (charsOf tokens ++ after))) := by
        rw [← colon, ← cut]
      _ = blank ++ '"' :: (body ++ '"' :: (gap ++ ':' ::
          (charsOf tokens ++ (pause ++ skip after)))) := by
        rw [← part]
      _ = charsOf (memberTokens blank body gap tokens pause) ++ skip after := by
        simp [memberTokens]
  rcases last with ⟨more, comma, read⟩ | ⟨close, rfl⟩
  · obtain ⟨inner, rfl, later, keys⟩ := members read
    have mark : Balanced [Token.mark ','] := .token rfl (by simp) (by simp)
    refine ⟨memberTokens blank body gap tokens pause ++ .mark ',' :: inner, ?_,
      whole.append (mark.append later), ?_⟩
    · rw [chars, comma]
      simp
    · intro name member
      rcases keys name member with earlier | inside
      · rcases mem_insert_keys earlier with rfl | before
        · exact .inr (names.mono (List.subset_append_left _ _))
        · exact .inl before
      · exact .inr (inside.mono (by simp))
  · refine ⟨memberTokens blank body gap tokens pause, by rw [chars, close], whole, ?_⟩
    intro name member
    rcases mem_insert_keys member with rfl | before
    · exact .inr names
    · exact .inl before

theorem ReadsItems.step (values : ReadsValues format fuel) (items : ReadsItems format fuel) :
    ReadsItems format (fuel + 1) := by
  intro done found text rest read
  rw [readItems] at read
  split at read
  · cases read
  · next value after first =>
      obtain ⟨tokens, rfl, balanced, -⟩ := values first
      obtain ⟨gap, cut, empty⟩ := skip_split after
      split at read
      · next tail shape =>
          obtain ⟨inner, rfl, later⟩ := items read
          have comma : Balanced [Token.mark ','] := .token rfl (by simp) (by simp)
          refine ⟨tokens ++ (gap.map .mark ++ (.mark ',' :: inner)), ?_, ?_⟩
          · rw [cut, shape]
            simp
          · exact balanced.append ((balanced_blank empty).append (comma.append later))
      · next tail shape =>
          obtain ⟨rfl, rfl⟩ := Prod.mk.inj (Option.some.inj read)
          refine ⟨tokens ++ gap.map .mark, ?_, balanced.append (balanced_blank empty)⟩
          rw [cut, shape]
          simp
      · cases read

/-- The tokens that the three readers consume, by induction on the fuel. -/
theorem readers_tokens (format : NumberFormat) (fuel : Nat) :
    ReadsValues format fuel ∧ ReadsMembers format fuel ∧ ReadsItems format fuel := by
  induction fuel with
  | zero =>
      refine ⟨?_, ?_, ?_⟩
      · intro _ _ _ read
        cases read
      · intro _ _ _ _ read
        cases read
      · intro _ _ _ _ read
        cases read
  | succ fuel ih =>
      obtain ⟨values, members, items⟩ := ih
      exact ⟨ReadsValues.step members items, ReadsMembers.step values members,
        ReadsItems.step values items⟩

end Readers

/-! ## The text of an object -/

section Objects

variable {format : NumberFormat} {text : List Char} {fields : List (String × Json)}

theorem parse_eq_some {value : Json} (read : parse format text = some value) :
    ∃ tokens blank, text = charsOf tokens ++ blank ∧ (∀ x ∈ blank, isBlank x = true) ∧
      ValueTokens value tokens := by
  rw [parse] at read
  split at read
  · next found rest first =>
      split_ifs at read with empty
      obtain rfl := Option.some.inj read
      obtain ⟨tokens, split, shape⟩ := (readers_tokens format (text.length + 1)).1 first
      obtain ⟨blank, gap, space⟩ := skip_split rest
      rw [List.isEmpty_iff.mp empty, List.append_nil] at gap
      exact ⟨tokens, rest, split, gap ▸ space, shape⟩
  · cases read

/-- An object stands between white space, from its first brace to the one that closes it. -/
theorem parse_object (read : parse format text = some (.obj fields)) :
    ∃ front inner back, text = front ++ ('{' :: charsOf inner ++ ['}']) ++ back ∧
      (∀ x ∈ front, isBlank x = true) ∧ (∀ x ∈ back, isBlank x = true) ∧ Balanced inner := by
  obtain ⟨tokens, back, split, behind, -, object⟩ := parse_eq_some read
  obtain ⟨front, inner, rfl, ahead, balanced, -⟩ := object fields rfl
  refine ⟨front, inner, back, ?_, ahead, behind, balanced⟩
  rw [split]
  simp

/-- The keys of an object are among the literals of its text. -/
theorem parse_keys (read : parse format text = some (.obj fields)) :
    ∃ tokens blank, text = charsOf tokens ++ blank ∧ (∀ t ∈ tokens, t.Valid) ∧
      ∀ key ∈ fields.map (·.1), Names tokens key := by
  obtain ⟨tokens, blank, split, -, balanced, object⟩ := parse_eq_some read
  obtain ⟨front, inner, rfl, -, -, keys⟩ := object fields rfl
  refine ⟨_, blank, split, balanced.valid, ?_⟩
  intro key member
  apply (keys key member).mono
  intro t inside
  simp [inside]

end Objects

/-! ## Reading from inside a literal -/

/-- Where a reader of tokens stands. -/
inductive Place where
  | outside
  | inside
  | escaped
  deriving DecidableEq

def advance : Place → Char → Option Place
  | .outside, x => if x = '"' then some .inside else if isMark x then some .outside else none
  | .inside, x =>
      if x = '"' then some .outside else if x = '\\' then some .escaped else some .inside
  | .escaped, _ => some .inside

/-- The place after a text, if it holds only tokens. -/
def placeAfter (place : Place) (text : List Char) : Option Place := text.foldlM advance place

section Places

variable {x : Char} {place last : Place} {text rest body : List Char} {tokens : List Token}

theorem isMark_ne (mark : isMark x = true) : x ≠ '"' ∧ x ≠ '\\' := by
  constructor
  · rintro rfl
    cases mark
  · rintro rfl
    cases mark

theorem placeAfter_append : placeAfter place (text ++ rest) =
    (placeAfter place text).bind (placeAfter · rest) :=
  List.foldlM_append

theorem placeAfter_quote (rest : List Char) :
    placeAfter .outside ('"' :: rest) = placeAfter .inside rest ∧
      placeAfter .inside ('"' :: rest) = placeAfter .outside rest :=
  ⟨rfl, rfl⟩

theorem placeAfter_mark (mark : isMark x = true) (rest : List Char) :
    placeAfter .outside (x :: rest) = placeAfter .outside rest ∧
      placeAfter .inside (x :: rest) = placeAfter .inside rest := by
  obtain ⟨quote, backslash⟩ := isMark_ne mark
  simp [placeAfter, advance, mark, quote, backslash]

theorem placeAfter_plain (plain : ∀ x ∈ text, x ≠ '"' ∧ x ≠ '\\') (rest : List Char) :
    placeAfter .inside (text ++ rest) = placeAfter .inside rest := by
  induction text with
  | nil => rfl
  | cons x more ih =>
      obtain ⟨quote, backslash⟩ := plain x List.mem_cons_self
      have step : placeAfter .inside (x :: (more ++ rest)) = placeAfter .inside (more ++ rest) := by
        simp [placeAfter, advance, quote, backslash]
      rw [List.cons_append, step]
      exact ih fun y later => plain y (List.mem_cons_of_mem x later)

theorem placeAfter_body (valid : Body body) (rest : List Char) :
    placeAfter .inside (body ++ '"' :: rest) = placeAfter .outside rest := by
  induction valid with
  | nil => rfl
  | @plain x _ quote backslash _ ih =>
      rw [← ih]
      simp [placeAfter, advance, quote, backslash]
  | escape _ ih =>
      rw [← ih]
      rfl

/-- Tokens lead from outside to outside. -/
theorem placeAfter_tokens (valid : ∀ t ∈ tokens, t.Valid) (rest : List Char) :
    placeAfter .outside (charsOf tokens ++ rest) = placeAfter .outside rest := by
  induction tokens with
  | nil => rfl
  | cons t more ih =>
      have later := ih fun u member => valid u (List.mem_cons_of_mem t member)
      cases t with
      | mark x =>
          have mark : isMark x = true := valid (.mark x) List.mem_cons_self
          rw [charsOf_mark_cons, List.cons_append, (placeAfter_mark mark _).1, later]
      | literal body =>
          have literal : Body body := valid (.literal body) List.mem_cons_self
          rw [charsOf_literal_cons, List.cons_append, (placeAfter_quote _).1, List.append_assoc,
            List.cons_append, placeAfter_body literal, later]

/-- A literal that is read where its text stands outside holds marks only. -/
theorem marks_of_body (valid : Body body)
    (mirrored : placeAfter .outside (body ++ '"' :: rest) = some last) :
    (∀ x ∈ body, isMark x = true) ∧ placeAfter .inside rest = some last := by
  induction valid with
  | nil => exact ⟨by simp, mirrored⟩
  | @plain x more quote backslash _ ih =>
      have mark : isMark x = true := by
        by_contra other
        simp [placeAfter, advance, quote, other] at mirrored
      rw [List.cons_append, (placeAfter_mark mark _).1] at mirrored
      obtain ⟨marks, next⟩ := ih mirrored
      refine ⟨?_, next⟩
      intro y member
      rcases List.mem_cons.mp member with rfl | later
      · exact mark
      · exact marks y later
  | escape _ _ => cases mirrored

/-- Tokens that are read from inside a literal have only marks in their own literals. -/
theorem marks_of_tokens (valid : ∀ t ∈ tokens, t.Valid)
    (mirrored : placeAfter .inside (charsOf tokens ++ rest) = some last) :
    ∀ body, Token.literal body ∈ tokens → ∀ x ∈ body, isMark x = true := by
  induction tokens with
  | nil => simp
  | cons t more ih =>
      have later := ih fun u member => valid u (List.mem_cons_of_mem t member)
      intro body member
      cases t with
      | mark x =>
          have mark : isMark x = true := valid (.mark x) List.mem_cons_self
          rw [charsOf_mark_cons, List.cons_append, (placeAfter_mark mark _).2] at mirrored
          exact later mirrored body (by simpa using member)
      | literal word =>
          have literal : Body word := valid (.literal word) List.mem_cons_self
          rw [charsOf_literal_cons, List.cons_append, (placeAfter_quote _).2, List.append_assoc,
            List.cons_append] at mirrored
          obtain ⟨marks, next⟩ := marks_of_body literal mirrored
          rcases List.mem_cons.mp member with same | member
          · obtain rfl := Token.literal.inj same
            exact marks
          · exact later next body member

/-- An object that is read from inside a literal of another text has only marks in its keys. -/
theorem marks_of_keys {format : NumberFormat} {fields : List (String × Json)}
    (read : parse format text = some (.obj fields))
    (mirrored : placeAfter .inside text = some last) :
    ∀ key ∈ fields.map (·.1), ∀ x ∈ key.toList, isMark x = true := by
  obtain ⟨tokens, blank, rfl, valid, names⟩ := parse_keys read
  intro key member x inside
  obtain ⟨body, literal, reads⟩ := names key member
  have marks := marks_of_tokens valid mirrored body literal
  have free : '\\' ∉ body := fun backslash => (isMark_ne (marks _ backslash)).2 rfl
  rw [reads free, String.toList_ofList] at inside
  exact marks x inside

end Places

end AdCoder.Foundation.JsonText
