import AdCoder.Foundation.Json
import AdCoder.Foundation.RegexLaws

/-!
# Decimal numerals in JSON

The decimal digits of a positive number are a numeral of the JSON grammar, and
a host that prints and reads whole numbers in decimal reads them back.
-/

namespace AdCoder.Foundation

/-- The host prints and reads safe whole numbers in decimal. -/
structure NumberFormat.Decimal (format : NumberFormat) : Prop where
  print : ∀ n : Nat, n ≤ JsNumber.maxSafe → format.print (.finite n) = toString n
  read : ∀ n : Nat, n ≤ JsNumber.maxSafe → format.read (toString n).toList = .finite n

/-- A host that prints and reads whole numbers in decimal. -/
def decimalFormat : NumberFormat where
  read digits := .finite (Nat.ofDigitChars 10 digits 0)
  print
    | .finite q => toString q.num.toNat
    | _ => "null"

theorem decimalFormat_decimal : decimalFormat.Decimal := by
  constructor
  · intro n _
    simp [decimalFormat]
  · intro n _
    simp [decimalFormat]

namespace JsonText

/-- A digit other than zero. -/
def isLeading (x : Char) : Bool := '1' ≤ x && x ≤ '9'

theorem numeral_of_digits {lead : Char} {digits : List Char} (hlead : isLeading lead = true)
    (hdigits : ∀ x ∈ digits, Regex.isDigit x = true) :
    numeral.test (String.ofList (lead :: digits)) = true := by
  have start : (⟨[], lead :: digits⟩ : Cursor) ∈ Regex.atStart.ends ⟨[], lead :: digits⟩ := by
    simp [Regex.atStart, Regex.ends]
  have first : (⟨[lead], digits⟩ : Cursor) ∈
      (Regex.one fun x => '1' ≤ x && x ≤ '9').ends ⟨[], lead :: digits⟩ := by
    have : ('1' ≤ lead && lead ≤ '9') = true := hlead
    simp [Regex.ends, this]
  have rest : (⟨digits.reverse ++ [lead], []⟩ : Cursor) ∈
      (Regex.star (.one Regex.isDigit)).ends ⟨[lead], digits⟩ := by
    have word : (⟨digits.reverse ++ [lead], []⟩ : Cursor) ∈
        Regex.iterate (Regex.one Regex.isDigit).ends true digits.length 0 none
          ⟨[lead], digits ++ []⟩ :=
      Regex.mem_iterate_word digits hdigits [lead] [] true digits.length (Nat.le_refl _)
        (Nat.zero_le _) (fun _ h => by cases h)
    simpa [Regex.star, Regex.ends] using word
  have finish : (⟨digits.reverse ++ [lead], []⟩ : Cursor) ∈
      Regex.atEnd.ends ⟨digits.reverse ++ [lead], []⟩ := by
    simp [Regex.atEnd, Regex.ends]
  refine Regex.test_eq_true.mpr ⟨⟨[], lead :: digits⟩, [], ⟨digits.reverse ++ [lead], []⟩, ?_, ?_⟩
  · constructor
    · simp
    · rfl
  · simp only [numeral, Regex.sequence, List.foldr_cons, List.foldr_nil]
    refine List.mem_flatMap.mpr ⟨_, start, List.mem_flatMap.mpr
      ⟨_, Regex.mem_ends_rep_stay _, List.mem_flatMap.mpr ⟨⟨digits.reverse ++ [lead], []⟩, ?_,
        List.mem_flatMap.mpr ⟨_, Regex.mem_ends_rep_stay _, List.mem_flatMap.mpr
          ⟨_, Regex.mem_ends_rep_stay _, List.mem_flatMap.mpr
            ⟨_, finish, List.mem_singleton.mpr rfl⟩⟩⟩⟩⟩⟩
    exact List.mem_append.mpr (Or.inr (List.mem_flatMap.mpr ⟨_, first, rest⟩))

/-- The decimal digits of a positive number. -/
theorem digits_of_pos (n : Nat) (pos : 0 < n) :
    ∃ lead digits, (toString n).toList = lead :: digits ∧ isLeading lead = true ∧
      ∀ x ∈ digits, Regex.isDigit x = true := by
  rw [Nat.toString_eq_repr, Nat.toList_repr]
  induction n using Nat.strongRecOn with
  | ind n ih =>
      by_cases small : n < 10
      · refine ⟨n.digitChar, [], Nat.toDigits_of_lt_base small, ?_, by simp⟩
        have table : ∀ m < 10, 0 < m → isLeading m.digitChar = true := by decide
        exact table n small pos
      · obtain ⟨lead, digits, hsplit, hlead, hdigits⟩ := ih (n / 10) (by omega) (by omega)
        refine ⟨lead, digits ++ [(n % 10).digitChar], ?_, hlead, ?_⟩
        · rw [Nat.toDigits_of_base_le (by omega) (by omega), hsplit, List.cons_append]
        · intro x hx
          rcases List.mem_append.mp hx with hx | hx
          · exact hdigits x hx
          · obtain rfl := List.mem_singleton.mp hx
            have table : ∀ m < 10, Regex.isDigit m.digitChar = true := by decide
            exact table _ (Nat.mod_lt n (by omega))

theorem isDigit_toString {n : Nat} (pos : 0 < n) :
    ∀ x ∈ (toString n).toList, Regex.isDigit x = true := by
  obtain ⟨lead, digits, hsplit, hlead, hdigits⟩ := digits_of_pos n pos
  intro x hx
  rw [hsplit] at hx
  rcases List.mem_cons.mp hx with rfl | hx
  · have zero : '0' ≤ '1' := by decide
    obtain ⟨low, high⟩ := Bool.and_eq_true_iff.mp hlead
    simp only [Regex.isDigit, Bool.and_eq_true, decide_eq_true_eq] at low high ⊢
    exact ⟨Char.le_trans zero low, high⟩
  · exact hdigits x hx

/-- A positive number in decimal is a numeral. -/
theorem numeral_toString {n : Nat} (pos : 0 < n) : numeral.test (toString n) = true := by
  obtain ⟨lead, digits, hsplit, hlead, hdigits⟩ := digits_of_pos n pos
  rw [← String.ofList_toList (s := toString n), hsplit]
  exact numeral_of_digits hlead hdigits

/-- The characters of numerals are read as a numeral, up to the first character that no numeral
has. -/
theorem readValue_numeral (format : NumberFormat) {word rest : List Char}
    (chars : ∀ x ∈ word, isNumeral x = true)
    (stop : ∀ x ∈ rest.head?, isNumeral x = false) (empty : word = [] → rest = []) (fuel : Nat) :
    readValue format (fuel + 1) (word ++ rest) =
      if numeral.test (String.ofList word) then some (.num (format.read word), rest)
      else none := by
  have taken : (word ++ rest).takeWhile isNumeral = word := by
    rw [List.takeWhile_append_of_pos chars]
    cases rest with
    | nil => simp
    | cons x rest => simp [stop x (by simp)]
  have dropped : (word ++ rest).drop word.length = rest := List.drop_left
  have foreign {x : Char} {tail : List Char} (h : word ++ rest = x :: tail) :
      isNumeral x = true := by
    cases word with
    | nil =>
        rw [empty rfl] at h
        cases h
    | cons lead word =>
        obtain ⟨rfl, _⟩ := List.cons.inj h
        exact chars lead (by simp)
  have skipped : skip (word ++ rest) = word ++ rest := by
    cases shape : word ++ rest with
    | nil => rfl
    | cons x tail =>
        have numeral := foreign shape
        have blank : (x == ' ' || x == '\t' || x == '\n' || x == '\r') = false := by
          rw [Bool.eq_false_iff]
          intro h
          simp only [Bool.or_eq_true, beq_iff_eq] at h
          rcases h with ((rfl | rfl) | rfl) | rfl
          all_goals exact absurd numeral (by decide)
        rw [skip, List.dropWhile_cons_of_neg]
        simpa using blank
  rw [readValue, skipped]
  split
  · next h => exact absurd (foreign h) (by decide)
  · next h => exact absurd (foreign h) (by decide)
  · next h => exact absurd (foreign h) (by decide)
  · next h => exact absurd (foreign h) (by decide)
  · next h => exact absurd (foreign h) (by decide)
  · next h => exact absurd (foreign h) (by decide)
  · simp only [taken, dropped]

/-- Digits are read as a numeral, up to the first character that no numeral has. -/
theorem readValue_digits (format : NumberFormat) {digits rest : List Char}
    (hdigits : ∀ x ∈ digits, Regex.isDigit x = true)
    (stop : ∀ x ∈ rest.head?, isNumeral x = false) (empty : digits = [] → rest = [])
    (fuel : Nat) :
    readValue format (fuel + 1) (digits ++ rest) =
      if numeral.test (String.ofList digits) then some (.num (format.read digits), rest)
      else none :=
  readValue_numeral format (fun x hx => by simp [isNumeral, hdigits x hx]) stop empty fuel

/-! ## White space -/

theorem isNumeral_of_isSpace {x : Char} (space : Regex.isSpace x = true) :
    isNumeral x = false := by
  have cases : x.toNat ≤ 32 ∨ 160 ≤ x.toNat := by
    simp only [Regex.isSpace, Bool.or_eq_true, Bool.and_eq_true, beq_iff_eq, decide_eq_true_eq,
      Char.le_def, UInt32.le_iff_toNat_le] at space
    have tab : '\r'.val.toNat = 13 := by decide
    rcases space with ((((((((((rfl | h) | h) | h) | h) | h) | h) | h) | h) | h) | h)
    · decide
    · left
      have low : x.val.toNat ≤ 13 := tab ▸ h.2
      simp only [Char.toNat]
      omega
    all_goals omega
  rw [Bool.eq_false_iff]
  intro numeral
  simp only [isNumeral, Regex.isDigit, Bool.or_eq_true, Bool.and_eq_true, beq_iff_eq,
    decide_eq_true_eq, Char.le_def, UInt32.le_iff_toNat_le] at numeral
  have zero : '0'.val.toNat = 48 := by decide
  have nine : '9'.val.toNat = 57 := by decide
  rcases numeral with ((((⟨low, high⟩ | rfl) | rfl) | rfl) | rfl) | rfl
  · simp only [Char.toNat] at cases
    omega
  all_goals exact absurd cases (by decide)

/-- White space alone is not JSON. -/
theorem parse_blank (format : NumberFormat) {text : List Char}
    (blank : ∀ x ∈ text, Regex.isSpace x = true) : parse format text = none := by
  have empty : numeral.test (String.ofList []) = false := by decide
  have left : ∀ x ∈ skip text, Regex.isSpace x = true :=
    fun x member => blank x ((List.dropWhile_sublist _).subset member)
  have digits : (skip text).takeWhile isNumeral = [] := by
    cases remaining : skip text with
    | nil => rfl
    | cons x rest =>
        have space := left x (remaining ▸ List.mem_cons_self)
        simp [isNumeral_of_isSpace space]
  have read : readValue format (text.length + 1) text = none := by
    rw [readValue]
    generalize skip text = remaining at left digits
    split
    all_goals first
      | exact absurd (left _ List.mem_cons_self) (by decide)
      | simp [digits, empty]
  rw [parse, read]

end JsonText

end AdCoder.Foundation
