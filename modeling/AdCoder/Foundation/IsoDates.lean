import AdCoder.Foundation.Regex
import Mathlib.Algebra.Order.Ring.Int
import Mathlib.Data.List.Lex

/-!
# Dates and timestamps in ISO 8601

A text is canonical when it is what `toISOString` writes of the time that it is read as.
A year of four digits makes texts of fixed widths, whose order is the order of the times.
-/

namespace AdCoder.Foundation.Iso

/-- The last digits of a number, so many of them. -/
def digits : Nat → Nat → List Char
  | 0, _ => []
  | width + 1, n => digits width (n / 10) ++ [(n % 10).digitChar]

def isLeapYear (year : Int) : Bool := year % 4 == 0 && (year % 100 != 0 || year % 400 == 0)

def daysInMonth (year : Int) (month : Nat) : Nat :=
  if month = 2 then if isLeapYear year then 29 else 28
  else if month = 4 ∨ month = 6 ∨ month = 9 ∨ month = 11 then 30
  else 31

structure Day where
  year : Int
  month : Nat
  day : Nat
  deriving DecidableEq

structure Clock where
  hour : Nat
  minute : Nat
  second : Nat
  millisecond : Nat
  deriving DecidableEq

structure Timestamp where
  day : Day
  clock : Clock
  deriving DecidableEq

namespace Day

def valid (d : Day) : Bool :=
  1 ≤ d.month && d.month ≤ 12 && 1 ≤ d.day && d.day ≤ daysInMonth d.year d.month

/-- A year of four digits, or a sign and six. -/
def yearText (year : Int) : List Char :=
  if 0 ≤ year ∧ year < 10000 then digits 4 year.toNat
  else (if year < 0 then '-' else '+') :: digits 6 year.natAbs

def text (d : Day) : List Char :=
  yearText d.year ++ '-' :: (digits 2 d.month ++ '-' :: digits 2 d.day)

end Day

namespace Clock

def valid (c : Clock) : Bool :=
  c.hour < 24 && c.minute < 60 && c.second < 60 && c.millisecond < 1000

def text (c : Clock) : List Char :=
  digits 2 c.hour ++ ':' :: (digits 2 c.minute ++ ':' :: (digits 2 c.second ++ '.' ::
    digits 3 c.millisecond))

def midnight : Clock := ⟨0, 0, 0, 0⟩

end Clock

namespace Timestamp

/-- A time value reaches a hundred million days to each side of the epoch. -/
def inRange (t : Timestamp) : Bool :=
  let low : List Int := [-271821, 4, 20]
  let day : List Int := [t.day.year, t.day.month, t.day.day]
  let high : List Int := [275760, 9, 13]
  low ≤ day && (day < high || (day == high && t.clock == Clock.midnight))

def valid (t : Timestamp) : Bool := t.day.valid && t.clock.valid && t.inRange

/-- `toISOString`. -/
def text (t : Timestamp) : List Char := t.day.text ++ 'T' :: (t.clock.text ++ ['Z'])

/-- The earlier of two times. -/
def Before (t u : Timestamp) : Prop :=
  t.day.year < u.day.year ∨ t.day.year = u.day.year ∧
    [t.day.month, t.day.day, t.clock.hour, t.clock.minute, t.clock.second, t.clock.millisecond] <
      [u.day.month, u.day.day, u.clock.hour, u.clock.minute, u.clock.second, u.clock.millisecond]

end Timestamp

/-! ## Reading -/

def number (text : List Char) : Nat := Nat.ofDigitChars 10 text 0

/-- The year at the start of a text, and what follows it. -/
def readYear (text : List Char) : Int × List Char :=
  match text with
  | '-' :: rest => (-(number (rest.take 6) : Int), rest.drop 6)
  | '+' :: rest => (number (rest.take 6), rest.drop 6)
  | _ => (number (text.take 4), text.drop 4)

/-- The time that a text in the format of `toISOString` is read as. -/
def readTimestamp (text : List Char) : Timestamp :=
  let (year, rest) := readYear text
  let at_ (start width : Nat) : Nat := number ((rest.drop start).take width)
  ⟨⟨year, at_ 1 2, at_ 4 2⟩, ⟨at_ 7 2, at_ 10 2, at_ 13 2, at_ 16 3⟩⟩

/-- `new Date(text).toISOString() === text`. -/
def isTimestamp (text : String) : Bool :=
  let t := readTimestamp text.toList
  t.valid && t.text == text.toList

/-- A day of a year of four digits, written as such. -/
def isDate (text : String) : Bool :=
  let text := text.toList
  let d : Day := ⟨number (text.take 4), number ((text.drop 5).take 2), number ((text.drop 8).take 2)⟩
  d.valid && d.text == text && text.length == 10

/-! ## Digits -/

section Digits

variable {width n m : Nat}

@[simp] theorem length_digits (width n : Nat) : (digits width n).length = width := by
  induction width generalizing n with
  | zero => rfl
  | succ width ih => rw [digits, List.length_append, ih, List.length_singleton]

theorem number_digits (small : n < 10 ^ width) : number (digits width n) = n := by
  induction width generalizing n with
  | zero =>
      obtain rfl : n = 0 := by simpa using small
      rfl
  | succ width ih =>
      have front : n / 10 < 10 ^ width := by
        rw [Nat.div_lt_iff_lt_mul (by decide), ← Nat.pow_succ]
        exact small
      rw [number, digits, Nat.ofDigitChars_append, ← number, ih front,
        Nat.ofDigitChars_cons_digitChar_of_lt_ten (Nat.mod_lt n (by decide)), Nat.ofDigitChars_nil]
      omega

theorem isDigit_of_mem_digits {x : Char} (mem : x ∈ digits width n) : Regex.isDigit x = true := by
  induction width generalizing n with
  | zero => cases mem
  | succ width ih =>
      obtain mem | mem := List.mem_append.mp mem
      · exact ih mem
      · obtain rfl := List.mem_singleton.mp mem
        have table : ∀ m < 10, Regex.isDigit m.digitChar = true := by decide
        exact table _ (Nat.mod_lt n (by decide))

end Digits

/-! ## Order -/

section Order

/-- Lists of one length are compared first, and what follows them only where they are the same. -/
theorem append_lt_append_iff {α : Type*} [LT α] {a b : List α} (same : a.length = b.length)
    (x y : List α) : a ++ x < b ++ y ↔ a < b ∨ a = b ∧ x < y := by
  induction a generalizing b with
  | nil =>
      obtain rfl := List.length_eq_zero_iff.mp same.symm
      simp
  | cons first rest ih =>
      cases b with
      | nil => cases same
      | cons other more =>
          rw [List.cons_append, List.cons_append, List.cons_lt_cons_iff, List.cons_lt_cons_iff,
            ih (Nat.succ.inj same), List.cons.injEq]
          tauto

theorem map_lt_map_iff {α β : Type*} [LT α] [LT β] {f : α → β} (mono : ∀ x y, f x < f y ↔ x < y)
    (inj : ∀ x y, f x = f y ↔ x = y) (a b : List α) : a.map f < b.map f ↔ a < b := by
  induction a generalizing b with
  | nil => cases b <;> simp
  | cons first rest ih =>
      cases b with
      | nil => simp
      | cons other more =>
          rw [List.map_cons, List.map_cons, List.cons_lt_cons_iff, List.cons_lt_cons_iff, mono, inj,
            ih]

variable {width n m : Nat}

theorem digits_inj (small : n < 10 ^ width) (small' : m < 10 ^ width) :
    digits width n = digits width m ↔ n = m := by
  constructor
  · intro same
    rw [← number_digits small, same, number_digits small']
  · rintro rfl
    rfl

/-- Numbers of one width are ordered as their digits are. -/
theorem digits_lt_iff (small : n < 10 ^ width) (small' : m < 10 ^ width) :
    digits width n < digits width m ↔ n < m := by
  induction width generalizing n m with
  | zero =>
      obtain rfl : n = 0 := by simpa using small
      obtain rfl : m = 0 := by simpa using small'
      simp [digits]
  | succ width ih =>
      have front {k : Nat} (small : k < 10 ^ (width + 1)) : k / 10 < 10 ^ width := by
        rw [Nat.div_lt_iff_lt_mul (by decide), ← Nat.pow_succ]
        exact small
      have table : ∀ i < 10, ∀ j < 10, i.digitChar < j.digitChar ↔ i < j := by decide
      have last := table (n % 10) (Nat.mod_lt n (by decide)) (m % 10) (Nat.mod_lt m (by decide))
      rw [digits, digits, append_lt_append_iff (by simp), ih (front small) (front small'),
        digits_inj (front small) (front small'), List.cons_lt_cons_iff, last]
      simp only [List.not_lt_nil, and_false, or_false]
      omega

end Order

namespace Timestamp

variable {t u : Timestamp}

/-- A time of a year of four digits. -/
def Common (t : Timestamp) : Prop := 0 ≤ t.day.year ∧ t.day.year < 10000

theorem daysInMonth_le (year : Int) (month : Nat) : daysInMonth year month ≤ 31 := by
  unfold daysInMonth
  split_ifs
  all_goals omega

theorem text_eq (common : t.Common) : t.text = digits 4 t.day.year.toNat ++ '-' ::
    (digits 2 t.day.month ++ '-' :: (digits 2 t.day.day ++ 'T' :: (digits 2 t.clock.hour ++ ':' ::
      (digits 2 t.clock.minute ++ ':' :: (digits 2 t.clock.second ++ '.' ::
        (digits 3 t.clock.millisecond ++ ['Z'])))))) := by
  have year : 0 ≤ t.day.year ∧ t.day.year < 10000 := common
  rw [text, Day.text, Day.yearText, if_pos year, Clock.text]
  simp only [List.append_assoc, List.cons_append]

/-- Times of years of four digits are ordered as their texts are. -/
theorem text_lt_iff (valid : t.valid = true) (valid' : u.valid = true) (common : t.Common)
    (common' : u.Common) : t.text < u.text ↔ t.Before u := by
  have bounds {v : Timestamp} (valid : v.valid = true) : v.day.month < 10 ^ 2 ∧ v.day.day < 10 ^ 2 ∧
      v.clock.hour < 10 ^ 2 ∧ v.clock.minute < 10 ^ 2 ∧ v.clock.second < 10 ^ 2 ∧
      v.clock.millisecond < 10 ^ 3 := by
    simp only [Timestamp.valid, Day.valid, Clock.valid, Bool.and_eq_true, decide_eq_true_eq] at valid
    have days := daysInMonth_le v.day.year v.day.month
    omega
  obtain ⟨month, day, hour, minute, second, millisecond⟩ := bounds valid
  obtain ⟨month', day', hour', minute', second', millisecond'⟩ := bounds valid'
  have year : t.day.year.toNat < 10 ^ 4 := by
    have := common.2
    omega
  have year' : u.day.year.toNat < 10 ^ 4 := by
    have := common'.2
    omega
  have same (x : Char) (a b : List Char) : x :: a < x :: b ↔ a < b := by
    rw [List.cons_lt_cons_iff]
    simp
  rw [text_eq common, text_eq common']
  simp only [append_lt_append_iff, length_digits, same, digits_lt_iff, digits_inj, year, year',
    month, month', day, day', hour, hour', minute, minute', second, second', millisecond,
    millisecond', Before, List.cons_lt_cons_iff]
  have order : t.day.year.toNat < u.day.year.toNat ↔ t.day.year < u.day.year := by
    have := common.1
    have := common'.1
    omega
  have equal : t.day.year.toNat = u.day.year.toNat ↔ t.day.year = u.day.year := by
    have := common.1
    have := common'.1
    omega
  rw [order, equal]
  simp

theorem length_text (t : Timestamp) :
    t.text.length = if 0 ≤ t.day.year ∧ t.day.year < 10000 then 24 else 27 := by
  simp only [text, Day.text, Day.yearText, Clock.text]
  split_ifs
  all_goals simp

/-- The text starts with a digit where the year has four, and with a sign otherwise. -/
theorem head_text (t : Timestamp) : ∃ x rest, t.text = x :: rest ∧
    (t.Common → '0' ≤ x) ∧ (¬ t.Common → x = '-' ∨ x = '+') := by
  by_cases common : t.Common
  · have year : 0 ≤ t.day.year ∧ t.day.year < 10000 := common
    have count : (digits 4 t.day.year.toNat).length = 4 := length_digits 4 _
    cases front : digits 4 t.day.year.toNat with
    | nil => simp [front] at count
    | cons x rest =>
        refine ⟨x, _, by rw [text, Day.text, Day.yearText, if_pos year, front]; rfl, fun _ => ?_,
          fun other => absurd common other⟩
        have digit := @isDigit_of_mem_digits 4 t.day.year.toNat x (by rw [front]; simp)
        simp only [Regex.isDigit, Bool.and_eq_true, decide_eq_true_eq] at digit
        exact digit.1
  · have year : ¬ (0 ≤ t.day.year ∧ t.day.year < 10000) := common
    refine ⟨_, _, by rw [text, Day.text, Day.yearText, if_neg year]; rfl,
      fun other => absurd other common, fun _ => ?_⟩
    split_ifs <;> simp

theorem small_of_mem_text (t : Timestamp) : ∀ x ∈ t.text, x.toNat < 0x10000 := by
  have digit {width n : Nat} : ∀ x ∈ digits width n, x.toNat < 0x10000 := by
    intro x mem
    have bounds := isDigit_of_mem_digits mem
    simp only [Regex.isDigit, Bool.and_eq_true, decide_eq_true_eq] at bounds
    have upper : x.toNat ≤ '9'.toNat := bounds.2
    exact Nat.lt_of_le_of_lt upper (by decide)
  have sign : ∀ x ∈ Day.yearText t.day.year, x.toNat < 0x10000 := by
    unfold Day.yearText
    split_ifs
    · exact digit
    · exact List.forall_mem_cons.mpr ⟨by decide, digit⟩
    · exact List.forall_mem_cons.mpr ⟨by decide, digit⟩
  simp only [text, Day.text, Clock.text, List.forall_mem_append, List.forall_mem_cons]
  exact ⟨⟨sign, by decide, digit, by decide, digit⟩, by decide,
    ⟨digit, by decide, digit, by decide, digit, by decide, digit⟩, by decide, by simp⟩

end Timestamp

/-! ## Texts of times -/

section Texts

variable {a b : String}

/-- The time that a text stands for. -/
def timeOf (text : String) : Timestamp := readTimestamp text.toList

theorem isTimestamp_iff :
    isTimestamp a = true ↔ (timeOf a).valid = true ∧ (timeOf a).text = a.toList := by
  simp [isTimestamp, timeOf]

theorem codeUnits_timestamp (stamp : isTimestamp a = true) :
    codeUnits a = a.toList.map Char.toNat := by
  have small := (timeOf a).small_of_mem_text
  rw [(isTimestamp_iff.mp stamp).2] at small
  rw [codeUnits, List.flatMap_congr fun x mem => if_pos (small x mem)]
  exact List.flatMap_pure_eq_map _ _

theorem codeUnits_lt_iff_toList (stamp : isTimestamp a = true) (stamp' : isTimestamp b = true) :
    codeUnits a < codeUnits b ↔ a.toList < b.toList := by
  rw [codeUnits_timestamp stamp, codeUnits_timestamp stamp']
  exact @map_lt_map_iff Char Nat _ _ Char.toNat (fun _ _ => Iff.rfl) (fun _ _ => Char.toNat_inj) _ _

theorem codeUnits_inj_timestamp (stamp : isTimestamp a = true) (stamp' : isTimestamp b = true)
    (same : codeUnits a = codeUnits b) : a = b := by
  rw [codeUnits_timestamp stamp, codeUnits_timestamp stamp'] at same
  exact String.toList_inj.mp (List.map_injective_iff.mpr (fun _ _ => Char.toNat_inj.mp) same)

/-- Between years of four digits the texts are in the order of the times. -/
theorem codeUnits_lt_iff (stamp : isTimestamp a = true) (stamp' : isTimestamp b = true)
    (common : (timeOf a).Common) (common' : (timeOf b).Common) :
    codeUnits a < codeUnits b ↔ (timeOf a).Before (timeOf b) := by
  obtain ⟨valid, whole⟩ := isTimestamp_iff.mp stamp
  obtain ⟨valid', whole'⟩ := isTimestamp_iff.mp stamp'
  rw [codeUnits_lt_iff_toList stamp stamp', ← whole, ← whole']
  exact Timestamp.text_lt_iff valid valid' common common'

end Texts

end AdCoder.Foundation.Iso
