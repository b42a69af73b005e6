import AdCoder.Foundation.Lists
import AdCoder.Web.Address
import Mathlib.Data.List.TakeWhile

/-!
# The spellings the check sees through

Which of the texts of a reserved address `isPrivateAddress` holds of. The first
word of a link-local, unique-local or multicast address is written out in every
text of it; the leading zeros of the others can be written in many ways, and
the check knows one.
-/

namespace AdCoder.Web

open Foundation

/-! ## Dotted addresses -/

theorem octet_eq_some {text : List Char} {n : Nat} (h : octet text = some n) :
    n < 256 ∧ text = (toString n).toList := by
  obtain ⟨here, bound, -⟩ := List.find?_range_eq_some.mp h
  exact ⟨List.mem_range.mp bound, (beq_iff_eq.mp here).symm⟩

theorem isDigit_toList_toString {n : Nat} : ∀ x ∈ (toString n).toList, x.isDigit = true := by
  rw [Nat.toString_eq_repr, Nat.toList_repr]
  intro x member
  exact Nat.isDigit_of_mem_toDigits (by decide) (by decide) member

/-- The numeral of an octet is read back. -/
theorem octet_toString {n : Nat} (h : n < 256) : octet (toString n).toList = some n := by
  refine List.find?_range_eq_some.mpr ⟨beq_self_eq_true _, List.mem_range.mpr h, ?_⟩
  intro m less
  rw [Bool.not_eq_true', beq_eq_false_iff_ne, Nat.toString_eq_repr, Nat.toString_eq_repr,
    Nat.toList_repr, Nat.toList_repr]
  intro same
  have read := Nat.ofDigitChars_ten_toDigits (n := m)
  rw [same, Nat.ofDigitChars_ten_toDigits] at read
  omega

/-- The text of a dotted address. -/
def dottedText (octets : Octets) : List Char :=
  ['.'].intercalate ([octets.1, octets.2.1, octets.2.2.1, octets.2.2.2].map fun n =>
    (toString n).toList)

def Octets.Small (octets : Octets) : Prop :=
  octets.1 < 256 ∧ octets.2.1 < 256 ∧ octets.2.2.1 < 256 ∧ octets.2.2.2 < 256

theorem dottedText_eq (octets : Octets) : ∃ rest,
    dottedText octets = (toString octets.1).toList ++ '.' :: rest ∧ ':' ∉ rest ∧ '%' ∉ rest := by
  have plain : ∀ x, x.isDigit = false → x ≠ '.' → x ∉ ['.'].intercalate
      ([octets.2.1, octets.2.2.1, octets.2.2.2].map fun n => (toString n).toList) := by
    intro x notDigit notDot member
    simp only [List.map_cons, List.map_nil, List.intercalate, List.intersperse, List.flatten_cons,
      List.flatten_nil, List.mem_append, List.mem_singleton, List.append_nil] at member
    have none : ∀ n : Nat, x ∉ (toString n).toList := fun n member => by
      simp [isDigit_toList_toString x member] at notDigit
    rcases member with member | member | member | member | member
    · exact none _ member
    · exact notDot member
    · exact none _ member
    · exact notDot member
    · exact none _ member
  exact ⟨_, rfl, plain ':' (by decide) (by decide), plain '%' (by decide) (by decide)⟩

theorem percent_not_mem_dottedText (octets : Octets) : '%' ∉ dottedText octets := by
  obtain ⟨rest, eq, -, noPercent⟩ := dottedText_eq octets
  rw [eq]
  simp only [List.mem_append, List.mem_cons, noPercent, or_false, not_or]
  exact ⟨fun member => absurd (isDigit_toList_toString _ member) (by decide), by decide⟩

theorem colon_not_mem_dottedText (octets : Octets) : ':' ∉ dottedText octets := by
  obtain ⟨rest, eq, noColon, -⟩ := dottedText_eq octets
  rw [eq]
  simp only [List.mem_append, List.mem_cons, noColon, or_false, not_or]
  exact ⟨fun member => absurd (isDigit_toList_toString _ member) (by decide), by decide⟩

theorem ipv4_eq_some {text : List Char} {octets : Octets} (h : ipv4 text = some octets) :
    text = dottedText octets ∧ octets.Small := by
  unfold ipv4 at h
  split at h
  · next a b c d split =>
      simp only [bind, Option.bind_eq_some_iff] at h
      obtain ⟨a', ha, b', hb, c', hc, d', hd, built⟩ := h
      obtain rfl := Option.some.inj built
      obtain ⟨smallA, rfl⟩ := octet_eq_some ha
      obtain ⟨smallB, rfl⟩ := octet_eq_some hb
      obtain ⟨smallC, rfl⟩ := octet_eq_some hc
      obtain ⟨smallD, rfl⟩ := octet_eq_some hd
      refine ⟨?_, smallA, smallB, smallC, smallD⟩
      have whole : ['.'].intercalate (text.splitOn '.') = text := List.intercalate_splitOn '.'
      rw [← whole, split]
      rfl
  · cases h

theorem ipv4_dottedText {octets : Octets} (small : octets.Small) :
    ipv4 (dottedText octets) = some octets := by
  obtain ⟨smallA, smallB, smallC, smallD⟩ := small
  have split : (dottedText octets).splitOn '.' =
      [octets.1, octets.2.1, octets.2.2.1, octets.2.2.2].map fun n => (toString n).toList := by
    refine List.splitOn_intercalate '.' ?_ (by simp)
    intro text member
    obtain ⟨n, -, rfl⟩ := List.mem_map.mp member
    intro dot
    exact absurd (isDigit_toList_toString '.' dot) (by decide)
  simp [ipv4, split, octet_toString, smallA, smallB, smallC, smallD, -Nat.toString_eq_repr]

/-- A dotted address starts with a digit and holds neither a colon nor a percent sign. -/
theorem ipv4_head {text : List Char} {octets : Octets} (h : ipv4 text = some octets) :
    (∃ x rest, text = x :: rest ∧ x.isDigit = true) ∧ ':' ∉ text ∧ '%' ∉ text := by
  obtain ⟨rfl, -⟩ := ipv4_eq_some h
  refine ⟨?_, colon_not_mem_dottedText octets, percent_not_mem_dottedText octets⟩
  obtain ⟨rest, eq, -, -⟩ := dottedText_eq octets
  have digits := isDigit_toList_toString (n := octets.1)
  rw [eq]
  cases hn : (toString octets.1).toList with
  | nil =>
      rw [Nat.toString_eq_repr, Nat.toList_repr] at hn
      exact absurd hn Nat.toDigits_ne_nil
  | cons x more => exact ⟨x, _, rfl, digits x (hn ▸ List.mem_cons_self)⟩

/-! ## Words -/

theorem digitValue_eq_some {x : Char} {digit : Nat} (h : digitValue x = some digit) :
    digit < 16 ∧ hexDigits[digit]? = some x := by
  obtain ⟨bound, here, -⟩ := List.idxOf?_eq_some_iff.mp h
  exact ⟨bound, List.getElem?_eq_some_iff.mpr ⟨bound, here⟩⟩

/-- What a digit is not. -/
theorem digit_ordinary {x : Char} {digit : Nat} (h : digitValue x = some digit) :
    x.toLower = x ∧ Regex.isSpace x = false ∧ x ≠ ':' ∧ x ≠ '%' ∧ x ≠ '.' ∧ x ≠ 'x' ∧ x ≠ 'X' ∧
      x ≠ '-' ∧ x ≠ '+' := by
  have table : (hexDigits.all fun y => y.toLower = y ∧ Regex.isSpace y = false ∧ y ≠ ':' ∧
      y ≠ '%' ∧ y ≠ '.' ∧ y ≠ 'x' ∧ y ≠ 'X' ∧ y ≠ '-' ∧ y ≠ '+') = true := by decide +kernel
  have member := List.mem_of_getElem? (digitValue_eq_some h).2
  exact of_decide_eq_true (List.all_eq_true.mp table x member)

theorem digitValue_of_isDigit {x : Char} (h : x.isDigit = true) :
    digitValue x = some (x.toNat - 48) := by
  have table : ∀ n < 10, digitValue (Char.ofNat (48 + n)) = some n := by decide
  simp only [Char.isDigit, Bool.and_eq_true, decide_eq_true_eq] at h
  have low : 48 ≤ x.toNat := h.1
  have high : x.toNat ≤ 57 := h.2
  have := table (x.toNat - 48) (by omega)
  rwa [Nat.add_sub_cancel' low, Char.ofNat_toNat] at this

/-- The digits of a text in order. -/
def Digits (text : List Char) (digits : List Nat) : Prop :=
  List.Forall₂ (fun x digit => digitValue x = some digit) text digits

theorem digits_of_mapM {text : List Char} {digits : List Nat}
    (h : text.mapM digitValue = some digits) : Digits text digits := by
  induction text generalizing digits with
  | nil =>
      obtain rfl : [] = digits := by simpa using h
      exact .nil
  | cons x rest ih =>
      simp only [List.mapM_cons, bind, Option.bind_eq_some_iff] at h
      obtain ⟨digit, first, more, later, built⟩ := h
      obtain rfl := Option.some.inj built
      exact .cons first (ih later)

theorem fromDigits_append (digits : List Nat) (digit : Nat) :
    fromDigits (digits ++ [digit]) = 16 * fromDigits digits + digit := by
  simp [fromDigits]

theorem fromDigits_lt {text : List Char} {digits : List Nat} (h : Digits text digits) :
    fromDigits digits < 16 ^ text.length := by
  have below : ∀ digit ∈ digits, digit < 16 := by
    intro digit member
    obtain ⟨x, -, value⟩ := exists_related_left h member
    exact (digitValue_eq_some value).1
  rw [h.length_eq]
  clear h
  induction digits using List.reverseRecOn with
  | nil => decide
  | append_singleton digits digit ih =>
      have := ih fun d member => below d (by simp [member])
      have := below digit (by simp)
      rw [fromDigits_append, List.length_append, List.length_singleton, Nat.pow_succ]
      omega

theorem hexWord_eq_some {text : List Char} {word : Nat} (h : hexWord text = some word) :
    ∃ digits, Digits text digits ∧ word = fromDigits digits ∧ text ≠ [] ∧ text.length ≤ 4 := by
  unfold hexWord at h
  split at h
  · next shape =>
      obtain ⟨digits, read, rfl⟩ := Option.map_eq_some_iff.mp h
      exact ⟨digits, digits_of_mapM read, rfl, shape.1, shape.2⟩
  · cases h

/-! ## Numerals to base 16 -/

theorem leadingDigits_append {text : List Char} {digits : List Nat} (h : Digits text digits)
    {rest : List Char} (stop : ∀ x ∈ rest.head?, digitValue x.toLower = none) :
    leadingDigits (text ++ rest) = digits := by
  induction h with
  | nil =>
      cases rest with
      | nil => rfl
      | cons x rest => simp [leadingDigits, stop x rfl]
  | cons first _ ih =>
      rw [List.cons_append, leadingDigits, (digit_ordinary first).1, first, ih]

/-- Numbers of 53 bits are doubles. -/
theorem toDouble_of_lt {n : Nat} (small : n < 2 ^ 53) : toDouble n = some n := by
  have exponent : n.log2 - 52 = 0 := by
    by_cases zero : n = 0
    · simp [zero]
    · have := (Nat.log2_lt zero).mpr small
      omega
  have bound : n < 2 ^ 1024 :=
    Nat.lt_of_lt_of_le small (Nat.pow_le_pow_right Nat.two_pos (by decide))
  simp only [toDouble, exponent, Nat.pow_zero, Nat.mod_one, Nat.div_one, Nat.mul_zero,
    Nat.zero_lt_one, true_or, if_true, Nat.mul_one, if_pos bound]

/-- Digits before a percent sign or a dot are read as a number. -/
theorem parseHex_append {text : List Char} {digits : List Nat} (h : Digits text digits)
    (nonempty : text ≠ []) (short : text.length ≤ 4) {rest : List Char}
    (stop : ∀ x ∈ rest.head?, x = '%' ∨ x = '.') :
    parseHex (text ++ rest) = some (fromDigits digits : Int) := by
  have ends : ∀ x ∈ rest.head?, digitValue x.toLower = none ∧ x ≠ 'x' ∧ x ≠ 'X' := by
    intro x member
    rcases stop x member with rfl | rfl <;> decide
  have read := leadingDigits_append h fun x member => (ends x member).1
  have bound : fromDigits digits < 2 ^ 53 := by
    calc fromDigits digits < 16 ^ text.length := fromDigits_lt h
      _ ≤ 16 ^ 4 := Nat.pow_le_pow_right (by decide) short
      _ < 2 ^ 53 := by decide
  cases h with
  | nil => exact absurd rfl nonempty
  | @cons x digit text digits first later =>
      obtain ⟨-, noSpace, -, -, -, -, -, noMinus, noPlus⟩ := digit_ordinary first
      have signless : splitSign (x :: (text ++ rest)) = (1, x :: (text ++ rest)) := by
        unfold splitSign
        split <;> simp_all
      have second : ∀ y ∈ (text ++ rest).head?, y ≠ 'x' ∧ y ≠ 'X' := by
        intro y member
        cases later with
        | nil => exact (ends y member).2
        | cons value _ =>
            obtain rfl := Option.some.inj member
            obtain ⟨-, -, -, -, -, noX, noX', -, -⟩ := digit_ordinary value
            exact ⟨noX, noX'⟩
      have whole : dropRadix (x :: (text ++ rest)) = x :: (text ++ rest) := by
        unfold dropRadix
        split
        · next eq =>
            obtain ⟨-, eq⟩ := List.cons.inj eq
            exact absurd rfl (second 'x' (by rw [eq]; rfl)).1
        · next eq =>
            obtain ⟨-, eq⟩ := List.cons.inj eq
            exact absurd rfl (second 'X' (by rw [eq]; rfl)).2
        · rfl
      rw [List.cons_append] at read ⊢
      simp [parseHex, noSpace, signless, whole, read, toDouble_of_lt bound]

/-! ## The words of a text -/

theorem fromDigits_eq_zero {digits : List Nat} (h : fromDigits digits = 0) :
    ∀ digit ∈ digits, digit = 0 := by
  induction digits using List.reverseRecOn with
  | nil => simp
  | append_singleton digits digit ih =>
      rw [fromDigits_append] at h
      intro d member
      rcases List.mem_append.mp member with member | member
      · exact ih (by omega) d member
      · obtain rfl := List.mem_singleton.mp member
        omega

/-- What the last words are read from. -/
theorem lastWords_cases {parts : List (List Char)} {words : List Nat}
    (h : lastWords parts = some words) :
    (parts = [] ∧ words = []) ∨
      (∃ last word, parts = [last] ∧ hexWord last = some word ∧ words = [word]) ∨
      (∃ last octets, parts = [last] ∧ ipv4 last = some octets ∧ words = twoWords octets) ∨
      ∃ piece rest word more, parts = piece :: rest ∧ rest ≠ [] ∧ hexWord piece = some word ∧
        lastWords rest = some more ∧ words = word :: more := by
  match parts with
  | [] => exact .inl ⟨rfl, (Option.some.inj h).symm⟩
  | [last] =>
      rw [lastWords] at h
      cases read : hexWord last with
      | some word =>
          rw [read] at h
          exact .inr (.inl ⟨last, word, rfl, read, (Option.some.inj h).symm⟩)
      | none =>
          rw [read] at h
          obtain ⟨octets, read, built⟩ := Option.map_eq_some_iff.mp h
          exact .inr (.inr (.inl ⟨last, octets, rfl, read, built.symm⟩))
  | piece :: next :: more =>
      simp only [lastWords, bind, Option.bind_eq_some_iff] at h
      obtain ⟨word, first, rest, later, built⟩ := h
      exact .inr (.inr (.inr ⟨piece, next :: more, word, rest, rfl, List.cons_ne_nil _ _, first,
        later, (Option.some.inj built).symm⟩))

theorem lastWords_ne_nil {parts : List (List Char)} {words : List Nat}
    (h : lastWords parts = some words) (nonempty : parts ≠ []) : words ≠ [] := by
  rcases lastWords_cases h with ⟨none, -⟩ | ⟨last, word, -, -, rfl⟩ | ⟨last, octets, -, -, rfl⟩ |
    ⟨piece, rest, word, more, -, -, -, -, rfl⟩
  · exact absurd none nonempty
  · exact List.cons_ne_nil _ _
  · exact List.cons_ne_nil _ _
  · exact List.cons_ne_nil _ _

theorem splitGap_eq_some {text before after : List Char} (h : splitGap text = some (before, after)) :
    text = before ++ ':' :: ':' :: after := by
  fun_induction splitGap text generalizing before with
  | case1 rest =>
      obtain ⟨rfl, rfl⟩ := Prod.mk.inj (Option.some.inj h)
      rfl
  | case2 => cases h
  | case3 x rest _ ih =>
      obtain ⟨⟨front, back⟩, found, built⟩ := Option.map_eq_some_iff.mp h
      obtain ⟨rfl, rfl⟩ := Prod.mk.inj built
      rw [ih found]
      rfl

/-- An address text starts with its first word, or with a gap. -/
theorem wordsOf_first {text : List Char} {words : List Nat} (h : wordsOf text = some words) :
    (words.headD 0 = 0 ∧ ∃ rest, text = ':' :: ':' :: rest) ∨
      ∃ piece rest, text = piece ++ ':' :: rest ∧ hexWord piece = some (words.headD 0) := by
  unfold wordsOf at h
  split at h
  · obtain ⟨read, length⟩ := Option.filter_eq_some_iff.mp h
    have eight : words.length = 8 := by simpa using length
    rcases splitOn_cases ':' text with ⟨-, split⟩ | ⟨first, rest, rfl, -, split⟩
    · rw [split] at read
      rcases lastWords_cases read with ⟨none, -⟩ | ⟨last, word, -, -, rfl⟩ |
        ⟨last, octets, -, -, rfl⟩ | ⟨piece, more, word, later, eq, nonempty, -, -, -⟩
      · cases none
      · cases eight
      · cases eight
      · exact absurd (List.cons.inj eq).2.symm nonempty
    · rw [split] at read
      rcases lastWords_cases read with ⟨none, -⟩ | ⟨last, word, -, -, rfl⟩ |
        ⟨last, octets, -, -, rfl⟩ | ⟨piece, more, word, later, eq, -, found, -, rfl⟩
      · cases none
      · cases eight
      · cases eight
      · obtain ⟨rfl, -⟩ := List.cons.inj eq
        exact .inr ⟨first, rest, rfl, found⟩
  · next before after gap =>
      obtain rfl := splitGap_eq_some gap
      simp only [bind, Option.bind_eq_some_iff] at h
      obtain ⟨front, frontRead, back, -, built⟩ := h
      split at built
      · next few =>
          obtain rfl := Option.some.inj built
          unfold pieces at frontRead
          split at frontRead
          · next empty =>
              obtain rfl : [] = front := by simpa using frontRead
              refine .inl ⟨?_, after, by rw [empty]; rfl⟩
              obtain ⟨n, hn⟩ : ∃ n, 8 - [].length - back.length = n + 1 :=
                ⟨7 - back.length, by simp at few ⊢; omega⟩
              rw [hn]
              rfl
          · rcases splitOn_cases ':' before with ⟨-, split⟩ | ⟨first, rest, rfl, -, split⟩
            · rw [split] at frontRead
              simp only [List.mapM_cons, List.mapM_nil, bind, Option.bind_eq_some_iff] at frontRead
              obtain ⟨word, found, none, -, built⟩ := frontRead
              obtain rfl := Option.some.inj built
              exact .inr ⟨before, ':' :: after, rfl, found⟩
            · rw [split] at frontRead
              simp only [List.mapM_cons, bind, Option.bind_eq_some_iff] at frontRead
              obtain ⟨word, found, more, -, built⟩ := frontRead
              obtain rfl := Option.some.inj built
              exact .inr ⟨first, rest ++ ':' :: ':' :: after, by simp, found⟩
      · cases built

/-- A text with a zone is an address text before the percent sign. -/
theorem ipv6_eq_some {text : List Char} {words : List Nat} (h : ipv6 text = some words) :
    ∃ body zone, text = body ++ zone ∧ wordsOf body = some words ∧ '%' ∉ body ∧
      ∀ x ∈ zone.head?, x = '%' := by
  have whole := List.takeWhile_append_dropWhile (p := (· ≠ '%')) (l := text)
  have fresh : '%' ∉ text.takeWhile (· ≠ '%') := fun member => by
    simpa using List.mem_takeWhile_imp member
  have head : ∀ x ∈ (text.dropWhile (· ≠ '%')).head?, x = '%' := by
    intro x member
    have := List.head?_dropWhile_not (fun x => decide (x ≠ '%')) text
    rw [Option.mem_def.mp member] at this
    simpa using this
  refine ⟨_, _, whole.symm, ?_, fresh, head⟩
  unfold ipv6 at h
  split at h
  · next empty =>
      rw [empty, List.append_nil] at whole
      rw [whole]
      exact h
  · split at h
    · exact h
    · cases h

/-! ## The first word -/

/-- The first word of a link-local, unique-local or multicast address has four digits. -/
theorem lead_digits {piece : List Char} {word : Nat} (h : hexWord piece = some word)
    (lead : ReservedLead word) :
    ∃ x rest, piece = 'f' :: x :: rest ∧ (x = 'c' ∨ x = 'd' ∨ x = 'f' ∨
      x = 'e' ∧ ∃ y rest', rest = y :: rest' ∧ (y = '8' ∨ y = '9' ∨ y = 'a' ∨ y = 'b')) := by
  obtain ⟨digits, read, rfl, -, short⟩ := hexWord_eq_some h
  have large : 16 ^ 3 < fromDigits digits := by
    rcases lead with ⟨low, -⟩ | ⟨low, -⟩ | ⟨low, -⟩ <;> omega
  have below := fromDigits_lt read
  have long : 4 ≤ piece.length := by
    by_contra less
    have : 16 ^ piece.length ≤ 16 ^ 3 := Nat.pow_le_pow_right (by decide) (by omega)
    omega
  obtain ⟨a, b, c, d, rfl⟩ : ∃ a b c d, piece = [a, b, c, d] := List.length_eq_four.mp (by omega)
  cases read with
  | @cons _ d₁ _ _ first read =>
  cases read with
  | @cons _ d₂ _ _ second read =>
  cases read with
  | @cons _ d₃ _ _ third read =>
  cases read with
  | @cons _ d₄ _ _ fourth read =>
  cases read
  obtain ⟨small₁, digit₁⟩ := digitValue_eq_some first
  obtain ⟨small₂, digit₂⟩ := digitValue_eq_some second
  obtain ⟨small₃, digit₃⟩ := digitValue_eq_some third
  obtain ⟨small₄, -⟩ := digitValue_eq_some fourth
  have value : fromDigits [d₁, d₂, d₃, d₄] = 16 * (16 * (16 * d₁ + d₂) + d₃) + d₄ := by
    simp [fromDigits]
  rw [value, ReservedLead] at lead
  obtain rfl : d₁ = 15 := by omega
  obtain rfl : 'f' = a := Option.some.inj digit₁
  refine ⟨b, [c, d], rfl, ?_⟩
  have cases₂ : d₂ = 12 ∨ d₂ = 13 ∨ d₂ = 15 ∨
      d₂ = 14 ∧ (d₃ = 8 ∨ d₃ = 9 ∨ d₃ = 10 ∨ d₃ = 11) := by omega
  rcases cases₂ with rfl | rfl | rfl | ⟨rfl, cases₃⟩
  · exact .inl (Option.some.inj digit₂).symm
  · exact .inr (.inl (Option.some.inj digit₂).symm)
  · exact .inr (.inr (.inl (Option.some.inj digit₂).symm))
  · refine .inr (.inr (.inr ⟨(Option.some.inj digit₂).symm, c, [d], rfl, ?_⟩))
    rcases cases₃ with rfl | rfl | rfl | rfl
    · exact .inl (Option.some.inj digit₃).symm
    · exact .inr (.inl (Option.some.inj digit₃).symm)
    · exact .inr (.inr (.inl (Option.some.inj digit₃).symm))
    · exact .inr (.inr (.inr (Option.some.inj digit₃).symm))

theorem privateText_of_lead {body : List Char} {words : List Nat}
    (h : wordsOf body = some words) (lead : ReservedLead (words.headD 0)) (zone : List Char) :
    privateText (body ++ zone) = true := by
  rcases wordsOf_first h with ⟨zero, -⟩ | ⟨piece, rest, rfl, first⟩
  · rw [zero, ReservedLead] at lead
    omega
  · obtain ⟨x, more, rfl, rfl | rfl | rfl | ⟨rfl, y, last, rfl, rfl | rfl | rfl | rfl⟩⟩ :=
      lead_digits first lead
    all_goals simp [privateText, privatePrefixes]

/-- With a first word of zero, the check knows two texts. -/
theorem privateText_of_zero {body : List Char} {words : List Nat}
    (h : wordsOf body = some words) (zero : words.headD 0 = 0) (zone : List Char) :
    privateText (body ++ zone) = true ↔
      body ++ zone = "::".toList ∨ body ++ zone = "::1".toList := by
  have none : (privatePrefixes.any fun first => first.toList.isPrefixOf (body ++ zone)) = false := by
    rcases wordsOf_first h with ⟨-, rest, rfl⟩ | ⟨piece, rest, rfl, first⟩
    · simp [privatePrefixes, List.isPrefixOf]
    · obtain ⟨digits, read, value, nonempty, -⟩ := hexWord_eq_some first
      rw [zero] at value
      have zeros := fromDigits_eq_zero value.symm
      cases read with
      | nil => exact absurd rfl nonempty
      | @cons x digit text more here later =>
          obtain rfl := zeros digit List.mem_cons_self
          obtain rfl : '0' = x := Option.some.inj (digitValue_eq_some here).2
          simp [privatePrefixes, List.isPrefixOf]
  rw [privateText, none, Bool.or_false, Bool.or_eq_true, beq_iff_eq, beq_iff_eq]

end AdCoder.Web
