import AdCoder.Web.AddressForms
import Mathlib.Tactic.IntervalCases

/-!
# Mapped addresses and the exact condition

After `::ffff:` the check reads a dotted address or two words. A zone with one
colon after a dotted address makes it read two numerals that are not there.
-/

namespace AdCoder.Web

open Foundation

/-- A dotted address with a zone, cut in two at the colon in the zone: the check reads both halves
to base 16, the first up to its dot. -/
def Misread (tail : List Char) : Prop :=
  ∃ octets zone low n, octets.Small ∧
    tail.splitOn ':' = [dottedText octets ++ '%' :: zone, low] ∧ parseHex low = some n ∧
      (100 ≤ octets.1 ∨ toInt32 n / 2 ^ 16 ≠ 0)

/-- The texts of a reserved address that the check sees through: the first word tells, or the text
is `::` or `::1`, or it starts with `::ffff:`. -/
def Recognised (address : String) : IpAddress → Prop
  | .v4 _ => True
  | .v6 words =>
      ReservedLead (words.headD 0) ∨ lowerCase address = "::".toList ∨
        lowerCase address = "::1".toList ∨
        ∃ tail, lowerCase address = mappedPrefix ++ tail ∧ ¬ Misread tail

/-! ## Octets -/

theorem privateOctets_of_reserved {octets : Octets} (h : ReservedOctets octets) :
    privateOctets octets = true := by
  obtain ⟨a, b, c, d⟩ := octets
  rcases h with ⟨rfl, -⟩ | rfl | (rfl | ⟨rfl, low, high⟩ | ⟨rfl, rfl⟩) | ⟨rfl, rfl⟩ | ⟨low, -⟩
  · rfl
  · rfl
  · rfl
  · simp [privateOctets, low, high]
  · rfl
  · rfl
  · simp [privateOctets, low]

theorem isPrivatePlain_dottedText {octets : Octets} (small : octets.Small) :
    isPrivatePlain (dottedText octets) = privateOctets octets := by
  rw [isPrivatePlain, ipv4_dottedText small]

theorem ipv4_of_percent {text : List Char} (h : '%' ∈ text) : ipv4 text = none := by
  cases read : ipv4 text with
  | none => rfl
  | some octets => exact absurd h (ipv4_head read).2.2

theorem ipv4_of_colon {text : List Char} (h : ':' ∈ text) : ipv4 text = none := by
  cases read : ipv4 text with
  | none => rfl
  | some octets => exact absurd h (ipv4_head read).2.1

/-- A dotted address before a percent sign can be told. -/
theorem dottedText_before_percent {octets octets' : Octets} (small : octets.Small)
    (small' : octets'.Small) {zone zone' : List Char}
    (h : dottedText octets ++ '%' :: zone = dottedText octets' ++ '%' :: zone') :
    octets = octets' := by
  have first : ∀ (octets : Octets) (zone : List Char),
      (dottedText octets ++ '%' :: zone).takeWhile (· ≠ '%') = dottedText octets := by
    intro octets zone
    rw [List.takeWhile_append_of_pos]
    · simp
    · intro x member
      rw [decide_eq_true_eq]
      rintro rfl
      exact percent_not_mem_dottedText octets member
  have same : dottedText octets = dottedText octets' := by
    rw [← first octets zone, h, first]
  have read := ipv4_dottedText small
  rw [same, ipv4_dottedText small'] at read
  exact (Option.some.inj read).symm

/-! ## Two halves -/

/-- A word is the text of its halves. -/
theorem dotted_words {high low : Nat} (hh : high < 16 ^ 4) (hl : low < 16 ^ 4) :
    dotted high low = dottedText (embedded high low) := by
  have whole : ∀ n : Nat, n < 16 ^ 4 → toInt32 n = n := by
    intro n bound
    rw [toInt32]
    omega
  rw [dotted, whole high hh, whole low hl]
  rfl

theorem embedded_small {high low : Nat} (hh : high < 16 ^ 4) (hl : low < 16 ^ 4) :
    (embedded high low).Small := by
  refine ⟨?_, Nat.mod_lt _ (by decide), ?_, Nat.mod_lt _ (by decide)⟩
  · exact Nat.div_lt_of_lt_mul hh
  · exact Nat.div_lt_of_lt_mul hl

theorem embedded_twoWords {octets : Octets} (small : octets.Small) {high low : Nat}
    (h : twoWords octets = [high, low]) : embedded high low = octets := by
  obtain ⟨a, b, c, d⟩ := octets
  obtain ⟨-, smallB, -, smallD⟩ := small
  obtain ⟨rfl, rest⟩ := List.cons.inj h
  obtain ⟨rfl, -⟩ := List.cons.inj rest
  simp only [embedded, Prod.mk.injEq] at smallB smallD ⊢
  omega

/-- What the check reads in front of the dot, in front of the colon of a zone. -/
theorem parseHex_dottedText {octets : Octets} (small : octets.1 < 256) (zone : List Char) :
    ∃ high : Nat, parseHex (dottedText octets ++ '%' :: zone) = some (high : Int) ∧
      high < 16 ^ 4 ∧ high / 256 = octets.1 / 100 := by
  have table : ((List.range 256).all fun n =>
      ((toString n).toList.mapM digitValue).any fun digits =>
        (toString n).toList.length ≤ 4 && fromDigits digits / 256 == n / 100) = true := by
    decide +kernel
  have entry := List.all_eq_true.mp table octets.1 (List.mem_range.mpr small)
  obtain ⟨digits, read, entry⟩ := (Option.any_eq_true _ _).mp entry
  obtain ⟨short, value⟩ := Bool.and_eq_true_iff.mp entry
  have short : (toString octets.1).toList.length ≤ 4 := of_decide_eq_true short
  have read := digits_of_mapM read
  have nonempty : (toString octets.1).toList ≠ [] := by
    rw [Nat.toString_eq_repr, Nat.toList_repr]
    exact Nat.toDigits_ne_nil
  obtain ⟨rest, eq, -, -⟩ := dottedText_eq octets
  refine ⟨fromDigits digits, ?_, ?_, beq_iff_eq.mp value⟩
  · rw [eq, List.append_assoc]
    exact parseHex_append read nonempty short (by simp)
  · calc fromDigits digits < 16 ^ (toString octets.1).toList.length := fromDigits_lt read
      _ ≤ 16 ^ 4 := Nat.pow_le_pow_right (by decide) short

theorem dot_not_mem_toString (n : Int) : '.' ∉ (toString n).toList := by
  cases n with
  | ofNat n => exact fun member => absurd (isDigit_toList_toString (n := n) _ member) (by decide)
  | negSucc n =>
      intro member
      have text : (toString (Int.negSucc n)).toList = '-' :: (toString (n + 1)).toList := by
        simp [toString, Int.repr]
      rw [text] at member
      rcases List.mem_cons.mp member with dash | member
      · cases dash
      · exact absurd (isDigit_toList_toString (n := n + 1) _ member) (by decide)

/-- An integer has the text of an octet if it is one. -/
theorem octet_of_toString {n : Int} {m : Nat} (h : (toString n).toList = (toString m).toList) :
    n = m := by
  cases n with
  | ofNat n =>
      have texts : Nat.toDigits 10 n = Nat.toDigits 10 m := by
        simpa only [Nat.toString_eq_repr, Nat.toList_repr] using
          (show (toString n).toList = (toString m).toList from h)
      have read := Nat.ofDigitChars_ten_toDigits (n := n)
      rw [texts, Nat.ofDigitChars_ten_toDigits] at read
      exact congrArg Int.ofNat read.symm
  | negSucc n =>
      have text : (toString (Int.negSucc n)).toList = '-' :: (toString (n + 1)).toList := by
        simp [toString, Int.repr]
      have dash := isDigit_toList_toString (n := m) '-' (by rw [← h, text]; exact List.mem_cons_self)
      exact absurd dash (by decide)

/-- The text made of two numerals is an address with a first octet of 0, 1 or 2, or none. -/
theorem isPrivatePlain_dotted {high : Nat} (bound : high < 16 ^ 4) (small : high / 256 < 3)
    (low : Int) :
    isPrivatePlain (dotted high low) = true ↔ high / 256 = 0 ∧ toInt32 low / 2 ^ 16 = 0 := by
  have whole : toInt32 high = high := by
    rw [toInt32]
    omega
  obtain ⟨first, hfirst⟩ : ∃ n, n = high / 256 := ⟨_, rfl⟩
  have pieces : dotted high low = ['.'].intercalate ([(first : Int), ((high % 256 : Nat) : Int),
      toInt32 low / 256, toInt32 low % 256].map fun n => (toString n).toList) := by
    rw [dotted, whole, hfirst]
    rfl
  by_cases inside : toInt32 low / 2 ^ 16 = 0
  · obtain ⟨c, hc⟩ : ∃ c : Nat, (c : Int) = toInt32 low / 256 :=
      ⟨(toInt32 low / 256).toNat, Int.toNat_of_nonneg (by omega)⟩
    obtain ⟨d, hd⟩ : ∃ d : Nat, (d : Int) = toInt32 low % 256 :=
      ⟨(toInt32 low % 256).toNat, Int.toNat_of_nonneg (by omega)⟩
    have octets : Octets.Small (first, high % 256, c, d) := by
      refine ⟨?_, ?_, ?_, ?_⟩ <;> dsimp only <;> omega
    have text : dotted high low = dottedText (first, high % 256, c, d) := by
      rw [pieces, ← hc, ← hd]
      rfl
    rw [text, isPrivatePlain_dottedText octets, ← hfirst]
    have three : first = 0 ∨ first = 1 ∨ first = 2 := by omega
    rcases three with rfl | rfl | rfl
    · simpa [privateOctets] using inside
    · simp [privateOctets]
    · simp [privateOctets]
  · have noAddress : ipv4 (dotted high low) = none := by
      cases read : ipv4 (dotted high low) with
      | none => rfl
      | some octets =>
          obtain ⟨text, -, -, smallC, -⟩ := ipv4_eq_some read
          have split := congrArg (List.splitOn '.') text
          rw [pieces, dottedText, List.splitOn_intercalate '.' ?_ (by simp),
            List.splitOn_intercalate '.' ?_ (by simp)] at split
          · simp only [List.map_cons, List.map_nil, List.cons.injEq] at split
            have third := octet_of_toString split.2.2.1
            omega
          · intro piece member
            obtain ⟨n, -, rfl⟩ := List.mem_map.mp member
            exact dot_not_mem_toString n
          · intro piece member
            obtain ⟨n, -, rfl⟩ := List.mem_map.mp member
            exact dot_not_mem_toString n
    have plain : privateText ((dotted high low).map Char.toLower) = false := by
      rw [pieces]
      have three : first = 0 ∨ first = 1 ∨ first = 2 := by omega
      rcases three with rfl | rfl | rfl <;> rfl
    rw [isPrivatePlain, noAddress]
    exact iff_of_false (by simp [plain]) fun both => inside both.2

/-! ## After the prefix -/

/-- Where the word `ffff` stands in a reserved address. -/
theorem two_after_mark {more : List Nat} (nonempty : more ≠ []) (few : more.length ≤ 6)
    (reserved : (IpAddress.v6 (List.replicate (7 - more.length) 0 ++ 0xffff :: more)).Reserved) :
    ∃ high low, more = [high, low] ∧ ReservedOctets (embedded high low) := by
  obtain ⟨k, hk⟩ : ∃ k, 7 - more.length = k + 1 := ⟨6 - more.length, by omega⟩
  have mark : (List.replicate (7 - more.length) 0 ++ 0xffff :: more)[7 - more.length]? =
      some 0xffff := by
    rw [List.getElem?_append_right (by simp), List.length_replicate, Nat.sub_self]
    rfl
  rcases reserved with zeros | one | lead | ⟨first, high, low, words, -, octets⟩
  · rw [zeros] at mark
    have := List.mem_of_getElem? mark
    simp at this
  · rw [one] at mark
    have := List.mem_of_getElem? mark
    simp at this
  · rw [hk, List.replicate_succ] at lead
    simp [ReservedLead] at lead
  · rw [words] at mark
    rcases more with _ | ⟨a, _ | ⟨b, _ | ⟨c, rest⟩⟩⟩
    · exact absurd rfl nonempty
    · obtain ⟨-, rfl, -⟩ : 0 = first ∧ 0xffff = high ∧ a = low := by
        simpa [List.replicate_succ] using words
      simp [embedded, ReservedOctets] at octets
    · obtain ⟨-, rfl, rfl⟩ : 0xffff = first ∧ a = high ∧ b = low := by
        simpa [List.replicate_succ] using words
      exact ⟨a, b, rfl, octets⟩
    · have place : 7 - (a :: b :: c :: rest).length < 5 := by
        simp only [List.length_cons]
        omega
      generalize 7 - (a :: b :: c :: rest).length = n at mark place
      interval_cases n <;> simp at mark

/-- A reserved address whose text starts with `::ffff:` is a mapped one. -/
theorem mapped_words {inner : List Char} {words : List Nat}
    (h : wordsOf (mappedPrefix ++ inner) = some words) (reserved : (IpAddress.v6 words).Reserved) :
    ∃ high low, lastWords (inner.splitOn ':') = some [high, low] ∧
      ReservedOctets (embedded high low) := by
  have gap : splitGap (mappedPrefix ++ inner) = some ([], "ffff:".toList ++ inner) := rfl
  have split : pieces ("ffff:".toList ++ inner) = "ffff".toList :: inner.splitOn ':' := by
    have shape : "ffff:".toList ++ inner = "ffff".toList ++ ':' :: inner := rfl
    rw [shape, pieces, if_neg (by simp)]
    exact List.splitOn_append_cons_self_of_not_mem (by decide) inner
  rw [wordsOf, gap] at h
  dsimp only at h
  rw [split] at h
  simp only [bind, Option.bind_eq_some_iff] at h
  obtain ⟨front, hfront, back, read, built⟩ := h
  obtain rfl : [] = front := Option.some.inj hfront
  rcases lastWords_cases read with ⟨none, -⟩ | ⟨last, word, eq, -, -⟩ | ⟨last, octets, eq, -, -⟩ |
    ⟨piece, rest, word, more, eq, nonempty, first, later, rfl⟩
  · cases none
  · exact absurd (List.cons.inj eq).2 (List.splitOn_ne_nil ':' inner)
  · exact absurd (List.cons.inj eq).2 (List.splitOn_ne_nil ':' inner)
  · obtain ⟨rfl, rfl⟩ := List.cons.inj eq
    obtain rfl : 0xffff = word := Option.some.inj first
    split at built
    · next few =>
        obtain rfl := Option.some.inj built
        simp only [List.length_nil, List.length_cons] at few
        have length : 8 - ([] : List Nat).length - (0xffff :: more).length = 7 - more.length := by
          simp only [List.length_nil, List.length_cons]
          omega
        rw [length, List.nil_append] at reserved
        obtain ⟨high, low, rfl, octets⟩ :=
          two_after_mark (lastWords_ne_nil later nonempty) (by omega) reserved
        exact ⟨high, low, later, octets⟩
    · cases built

theorem isPrivateMapped_other {tail : List Char} (address : ipv4 tail = none)
    (pieces : (tail.splitOn ':').length ≠ 2) : isPrivateMapped tail = true := by
  rw [isPrivateMapped, address, Option.isSome_none, if_neg Bool.false_ne_true]
  split
  · next two => exact absurd (congrArg List.length two) pieces
  · rfl

/-- Two words after the prefix are read as they are. -/
theorem isPrivateMapped_words {before after zone : List Char} {high low : Nat}
    (hh : hexWord before = some high) (hl : hexWord after = some low)
    (octets : ReservedOctets (embedded high low)) (percent : ∀ x ∈ zone.head?, x = '%') :
    isPrivateMapped (before ++ ':' :: after ++ zone) = true ∧
      ¬ Misread (before ++ ':' :: after ++ zone) := by
  obtain ⟨highs, readHigh, rfl, someHigh, shortHigh⟩ := hexWord_eq_some hh
  obtain ⟨lows, readLow, rfl, someLow, shortLow⟩ := hexWord_eq_some hl
  have boundHigh : fromDigits highs < 16 ^ 4 := (fromDigits_lt readHigh).trans_le
    (Nat.pow_le_pow_right (by decide) shortHigh)
  have boundLow : fromDigits lows < 16 ^ 4 := (fromDigits_lt readLow).trans_le
    (Nat.pow_le_pow_right (by decide) shortLow)
  have ordinary : ∀ {text digits}, Digits text digits → ':' ∉ text ∧ '%' ∉ text := by
    intro text digits read
    constructor
    · intro member
      obtain ⟨digit, -, value⟩ := exists_related_right read member
      exact (digit_ordinary value).2.2.1 rfl
    · intro member
      obtain ⟨digit, -, value⟩ := exists_related_right read member
      exact (digit_ordinary value).2.2.2.1 rfl
  have split : (before ++ ':' :: after ++ zone).splitOn ':' =
      before :: (after ++ zone).splitOn ':' := by
    rw [List.append_assoc]
    exact List.splitOn_append_cons_self_of_not_mem (ordinary readHigh).1 (after ++ zone)
  constructor
  · have noAddress : ipv4 (before ++ ':' :: after ++ zone) = none := ipv4_of_colon (by simp)
    rcases splitOn_cases ':' (after ++ zone) with ⟨-, single⟩ | ⟨first, rest, -, -, several⟩
    · have wordHigh : parseHex (before ++ []) = some (fromDigits highs : Int) :=
        parseHex_append readHigh someHigh shortHigh (by simp)
      have wordLow := parseHex_append readLow someLow shortLow fun x member =>
        .inl (percent x member)
      rw [List.append_nil] at wordHigh
      rw [isPrivateMapped, noAddress, Option.isSome_none, if_neg Bool.false_ne_true, split, single]
      simp only [wordHigh, wordLow]
      rw [dotted_words boundHigh boundLow,
        isPrivatePlain_dottedText (embedded_small boundHigh boundLow)]
      exact privateOctets_of_reserved octets
    · refine isPrivateMapped_other noAddress ?_
      have := List.length_pos_of_ne_nil (List.splitOn_ne_nil ':' rest)
      rw [split, several, List.length_cons, List.length_cons]
      omega
  · rintro ⟨dots, zone', low', n, -, misread, -⟩
    rw [split] at misread
    have first := (List.cons.inj misread).1
    exact (ordinary readHigh).2 (first ▸ by simp)

/-- A dotted address after the prefix is read as it is, unless its zone cuts it in two. -/
theorem isPrivateMapped_dotted {octets : Octets} (small : octets.Small)
    (reserved : ReservedOctets octets) {zone : List Char} (percent : ∀ x ∈ zone.head?, x = '%') :
    isPrivateMapped (dottedText octets ++ zone) = true ↔
      ¬ Misread (dottedText octets ++ zone) := by
  have noColon := colon_not_mem_dottedText octets
  cases zone with
  | nil =>
      rw [List.append_nil, isPrivateMapped, ipv4_dottedText small, isPrivatePlain_dottedText small]
      refine iff_of_true (privateOctets_of_reserved reserved) ?_
      rintro ⟨octets', zone, low, n, -, misread, -⟩
      rw [List.splitOn_eq_singleton noColon] at misread
      cases (List.cons.inj misread).2
  | cons x zone =>
      obtain rfl := percent x rfl
      have noAddress : ipv4 (dottedText octets ++ '%' :: zone) = none :=
        ipv4_of_percent (by simp)
      by_cases two : ((dottedText octets ++ '%' :: zone).splitOn ':').length = 2
      · obtain ⟨half, low, split⟩ := List.length_eq_two.mp two
        obtain ⟨first, rfl⟩ : ∃ first, half = dottedText octets ++ '%' :: first := by
          rcases splitOn_cases ':' zone with ⟨none, -⟩ | ⟨first, rest, rfl, none, -⟩
          · rw [List.splitOn_eq_singleton (by simp [noColon, none])] at split
            cases (List.cons.inj split).2
          · rw [← List.cons_append, ← List.append_assoc,
              List.splitOn_append_cons_self_of_not_mem (by simp [noColon, none])] at split
            exact ⟨first, (List.cons.inj split).1.symm⟩
        obtain ⟨high, readHigh, bound, hundreds⟩ := parseHex_dottedText small.1 first
        have smallHundreds : high / 256 < 3 := by
          have := small.1
          omega
        rw [isPrivateMapped, noAddress, Option.isSome_none, if_neg Bool.false_ne_true, split]
        simp only [readHigh]
        cases readLow : parseHex low with
        | none =>
            refine iff_of_true rfl ?_
            rintro ⟨octets', zone', low', n, -, misread, read, -⟩
            rw [split] at misread
            obtain rfl := (List.cons.inj (List.cons.inj misread).2).1
            cases readLow.symm.trans read
        | some n =>
            dsimp only
            rw [isPrivatePlain_dotted bound smallHundreds]
            constructor
            · rintro ⟨none, inside⟩ ⟨octets', zone', low', n', small', misread, read, outside⟩
              rw [split] at misread
              obtain ⟨same, rest⟩ := List.cons.inj misread
              obtain rfl := dottedText_before_percent small small' same
              obtain rfl := (List.cons.inj rest).1
              obtain rfl := Option.some.inj (readLow.symm.trans read)
              omega
            · intro plain
              by_contra neither
              exact plain ⟨octets, first, low, n, small, split, readLow, by omega⟩
      · refine iff_of_true (isPrivateMapped_other noAddress two) ?_
        rintro ⟨octets', zone', low, n, -, misread, -⟩
        exact two (by rw [misread]; rfl)

/-! ## The check -/

theorem isPrivateMapped_iff {inner zone : List Char} {words : List Nat}
    (h : wordsOf (mappedPrefix ++ inner) = some words) (reserved : (IpAddress.v6 words).Reserved)
    (percent : ∀ x ∈ zone.head?, x = '%') :
    isPrivateMapped (inner ++ zone) = true ↔ ¬ Misread (inner ++ zone) := by
  obtain ⟨high, low, read, octets⟩ := mapped_words h reserved
  have whole : [':'].intercalate (inner.splitOn ':') = inner := List.intercalate_splitOn ':'
  rcases lastWords_cases read with ⟨-, none⟩ | ⟨last, word, -, -, one⟩ | ⟨last, dots, eq, quad, two⟩ |
    ⟨before, rest, word, more, eq, -, first, later, both⟩
  · cases none
  · cases (List.cons.inj one).2
  · obtain rfl : inner = last := by
      rw [← whole, eq]
      simp [List.intercalate]
    obtain ⟨rfl, small⟩ := ipv4_eq_some quad
    rw [embedded_twoWords small two.symm] at octets
    exact isPrivateMapped_dotted small octets percent
  · obtain ⟨rfl, rfl⟩ := List.cons.inj both
    obtain ⟨after, rfl, last⟩ : ∃ after, rest = [after] ∧ hexWord after = some low := by
      rcases lastWords_cases later with ⟨-, none⟩ | ⟨after, word, rfl, last, one⟩ |
        ⟨last, dots, -, -, two⟩ | ⟨piece, rest', word, more, -, nonempty, -, later', two⟩
      · cases none
      · obtain rfl := (List.cons.inj one).1
        exact ⟨after, rfl, last⟩
      · cases (List.cons.inj two).2
      · exact absurd (List.cons.inj two).2.symm (lastWords_ne_nil later' nonempty)
    obtain rfl : inner = before ++ ':' :: after := by
      rw [← whole, eq]
      simp [List.intercalate]
    have ⟨plain, fits⟩ := isPrivateMapped_words first last octets percent
    exact iff_of_true plain fits

theorem not_reservedLead_zero : ¬ ReservedLead 0 := by
  rw [ReservedLead]
  omega

theorem headD_of_colon {rest : List Char} {words : List Nat}
    (h : wordsOf (':' :: rest) = some words) : words.headD 0 = 0 := by
  rcases wordsOf_first h with ⟨zero, -⟩ | ⟨piece, more, eq, first⟩
  · exact zero
  · obtain ⟨digits, read, -, nonempty, -⟩ := hexWord_eq_some first
    cases read with
    | nil => exact absurd rfl nonempty
    | @cons x digit text digits here _ =>
        obtain rfl := (List.cons.inj eq).1
        exact absurd rfl (digit_ordinary here).2.2.1

theorem headD_of_reserved {words : List Nat} (reserved : (IpAddress.v6 words).Reserved)
    (lead : ¬ ReservedLead (words.headD 0)) : words.headD 0 = 0 := by
  rcases reserved with rfl | rfl | first | ⟨mark, high, low, rfl, -, -⟩
  · rfl
  · rfl
  · exact absurd first lead
  · rfl

theorem not_mapped_of_ipv4 {text : List Char} {octets : Octets} (h : ipv4 text = some octets) :
    mappedPrefix.isPrefixOf (text.map Char.toLower) = false := by
  obtain ⟨⟨x, rest, rfl, digit⟩, -⟩ := ipv4_head h
  obtain ⟨lower, -, noColon, -⟩ := digit_ordinary (digitValue_of_isDigit digit)
  have differs : (':' == x) = false := beq_eq_false_iff_ne.mpr noColon.symm
  have colon : mappedPrefix = ':' :: ":ffff:".toList := rfl
  rw [List.map_cons, lower, colon, List.isPrefixOf_cons_cons, differs, Bool.false_and]

/-- A text that starts with the prefix starts with it before its zone. -/
theorem mapped_before_zone {body zone tail : List Char} (h : body ++ zone = mappedPrefix ++ tail)
    (percent : ∀ x ∈ zone.head?, x = '%') :
    ∃ inner, body = mappedPrefix ++ inner ∧ tail = inner ++ zone := by
  rcases List.append_eq_append_iff.mp h with ⟨more, eq, rfl⟩ | ⟨inner, rfl, rfl⟩
  · cases more with
    | nil => exact ⟨[], by simpa using eq.symm, rfl⟩
    | cons x more =>
        obtain rfl := percent x rfl
        have : '%' ∈ mappedPrefix := eq ▸ by simp
        exact absurd this (by decide)
  · exact ⟨inner, rfl, rfl⟩

/-- The check holds of a text of a reserved address exactly if it recognises the text. -/
theorem isPrivateAddress_iff {address : String} {number : IpAddress}
    (h : numeric address = some number) (reserved : number.Reserved) :
    isPrivateAddress address = true ↔ Recognised address number := by
  cases quad : ipv4 address.toList with
  | some octets =>
      rw [numeric, quad] at h
      obtain rfl : .v4 octets = number := Option.some.inj h
      rw [isPrivateAddress, lowerCase, not_mapped_of_ipv4 quad, if_neg Bool.false_ne_true,
        isPrivatePlain, quad]
      exact iff_of_true (privateOctets_of_reserved reserved) trivial
  | none =>
      rw [numeric, quad] at h
      obtain ⟨words, read, rfl⟩ := Option.map_eq_some_iff.mp h
      obtain ⟨body, zone, eq, read, -, percent⟩ := ipv6_eq_some read
      rw [isPrivateAddress]
      by_cases mapped : mappedPrefix.isPrefixOf (lowerCase address) = true
      · obtain ⟨tail, htail⟩ := List.isPrefixOf_iff_prefix.mp mapped
        obtain ⟨inner, rfl, rfl⟩ := mapped_before_zone (eq.symm.trans htail.symm) percent
        have lead : ¬ ReservedLead (words.headD 0) := by
          rw [headD_of_colon read]
          exact not_reservedLead_zero
        have rest : (lowerCase address).drop 7 = inner ++ zone := by
          rw [← htail]
          rfl
        rw [if_pos mapped, rest, isPrivateMapped_iff read reserved percent]
        constructor
        · intro fits
          exact .inr (.inr (.inr ⟨_, htail.symm, fits⟩))
        · rintro (first | all | one | ⟨tail, htail', fits⟩)
          · exact absurd first lead
          · rw [← htail] at all
            cases all
          · rw [← htail] at one
            cases one
          · rwa [List.append_cancel_left (htail.trans htail')]
      · have differs : ∀ tail, lowerCase address ≠ mappedPrefix ++ tail := fun tail same =>
          mapped (List.isPrefixOf_iff_prefix.mpr ⟨tail, same.symm⟩)
        rw [if_neg mapped, isPrivatePlain, quad]
        change privateText (lowerCase address) = true ↔ _
        by_cases lead : ReservedLead (words.headD 0)
        · refine iff_of_true ?_ (.inl lead)
          rw [eq]
          exact privateText_of_lead read lead zone
        · rw [Recognised, eq, privateText_of_zero read (headD_of_reserved reserved lead) zone, ← eq]
          constructor
          · rintro (all | one)
            · exact .inr (.inl all)
            · exact .inr (.inr (.inl one))
          · rintro (first | all | one | ⟨tail, same, -⟩)
            · exact absurd first lead
            · exact .inl all
            · exact .inr one
            · exact absurd same (differs tail)

end AdCoder.Web
