import Mathlib.Algebra.GroupWithZero.Nat
import Mathlib.Data.List.DropRight

/-!
# Texts of UTF-16 code units

A text is any list of code units. A surrogate pair is one code point; a surrogate that
stands alone is a code point of its own and takes the three bytes of U+FFFD in UTF-8.
-/

namespace AdCoder.Foundation.Utf16

abbrev CodeUnit := UInt16

def isHigh (unit : CodeUnit) : Bool := 0xd800 ≤ unit && unit ≤ 0xdbff

def isLow (unit : CodeUnit) : Bool := 0xdc00 ≤ unit && unit ≤ 0xdfff

theorem isHigh_of_isLow {unit : CodeUnit} (low : isLow unit = true) : isHigh unit = false := by
  simp only [isLow, isHigh, Bool.and_eq_true, decide_eq_true_eq, Bool.and_eq_false_iff,
    decide_eq_false_iff_not, UInt16.le_iff_toNat_le] at low ⊢
  have bounds : (0xdc00 : CodeUnit).toNat = 0xdc00 ∧ (0xdbff : CodeUnit).toNat = 0xdbff := by decide
  omega

/-- The code points of a text. -/
def points : List CodeUnit → List (List CodeUnit)
  | [] => []
  | [unit] => [[unit]]
  | first :: second :: rest =>
      if isHigh first && isLow second then [first, second] :: points rest
      else [first] :: points (second :: rest)

def unitBytes (unit : CodeUnit) : Nat :=
  if unit < 0x80 then 1 else if unit < 0x800 then 2 else 3

/-- The bytes that a code point takes in UTF-8. -/
def pointBytes : List CodeUnit → Nat
  | [unit] => unitBytes unit
  | _ => 4

/-- `Buffer.byteLength` of a text in UTF-8. -/
def byteLength (text : List CodeUnit) : Nat := ((points text).map pointBytes).sum

/-- A pair of surrogates stands across the end of one text and the start of the next. -/
def splitsPair (front back : List CodeUnit) : Bool :=
  (front.getLast?.any isHigh) && (back.head?.any isLow)

/-- A code point that is an unpaired high surrogate. -/
def loneHigh : List CodeUnit → Bool
  | [unit] => isHigh unit
  | _ => false

variable {front back text : List CodeUnit}

theorem unitBytes_bounds (unit : CodeUnit) : 1 ≤ unitBytes unit ∧ unitBytes unit ≤ 3 := by
  unfold unitBytes
  split_ifs
  all_goals omega

theorem unitBytes_high {unit : CodeUnit} (high : isHigh unit = true) : unitBytes unit = 3 := by
  simp only [isHigh, Bool.and_eq_true, decide_eq_true_eq, UInt16.le_iff_toNat_le] at high
  have bounds : (0xd800 : CodeUnit).toNat = 0xd800 ∧ (0x80 : CodeUnit).toNat = 0x80 ∧
    (0x800 : CodeUnit).toNat = 0x800 := by decide
  simp only [unitBytes, UInt16.lt_iff_toNat_lt]
  rw [if_neg (by omega), if_neg (by omega)]

/-! ## Code points -/

@[simp] theorem points_nil : points [] = [] := rfl

@[simp] theorem points_singleton (unit : CodeUnit) : points [unit] = [[unit]] := rfl

theorem points_pair {first second : CodeUnit} (high : isHigh first = true)
    (low : isLow second = true) (rest : List CodeUnit) :
    points (first :: second :: rest) = [first, second] :: points rest := by
  simp [points, high, low]

theorem points_single {first : CodeUnit} (apart : splitsPair [first] text = false) :
    points (first :: text) = [first] :: points text := by
  cases text with
  | nil => rfl
  | cons second rest =>
      have no : (isHigh first && isLow second) = false := by simpa [splitsPair] using apart
      simp [points, no]

/-- A text is nothing, an unsplit unit before a text, or a pair before a text. -/
theorem points_cases {P : List CodeUnit → Prop} (nil : P [])
    (single : ∀ {first text}, splitsPair [first] text = false → P text → P (first :: text))
    (pair : ∀ {first second text}, isHigh first = true → isLow second = true → P text →
      P (first :: second :: text)) : ∀ text, P text
  | [] => nil
  | [unit] => single (by simp [splitsPair]) nil
  | first :: second :: rest => by
      by_cases both : (isHigh first && isLow second) = true
      · obtain ⟨high, low⟩ := Bool.and_eq_true_iff.mp both
        exact pair high low (points_cases nil single pair rest)
      · apply single
        · simpa [splitsPair] using both
        · exact points_cases nil single pair (second :: rest)

@[simp] theorem flatten_points (text : List CodeUnit) : (points text).flatten = text := by
  induction text using points_cases with
  | nil => rfl
  | single apart ih => rw [points_single apart, List.flatten_cons, ih, List.singleton_append]
  | pair high low ih => rw [points_pair high low, List.flatten_cons, ih]; rfl

theorem mem_points {point : List CodeUnit} (mem : point ∈ points text) :
    (∃ unit, point = [unit]) ∨
      ∃ first second, point = [first, second] ∧ isHigh first = true ∧ isLow second = true := by
  induction text using points_cases with
  | nil => cases mem
  | single apart ih =>
      rw [points_single apart, List.mem_cons] at mem
      obtain rfl | mem := mem
      · exact Or.inl ⟨_, rfl⟩
      · exact ih mem
  | pair high low ih =>
      rw [points_pair high low, List.mem_cons] at mem
      obtain rfl | mem := mem
      · exact Or.inr ⟨_, _, rfl, high, low⟩
      · exact ih mem

/-- A text cut between two code points has the code points of its parts. -/
theorem points_append (apart : splitsPair front back = false) :
    points (front ++ back) = points front ++ points back := by
  induction front using points_cases with
  | nil => rfl
  | @single first rest alone ih =>
      have later : splitsPair rest back = false := by
        cases rest with
        | nil => simp [splitsPair]
        | cons second rest => simpa [splitsPair, List.getLast?_cons_cons] using apart
      have whole : splitsPair [first] (rest ++ back) = false := by
        cases rest with
        | nil => simpa [splitsPair] using apart
        | cons second rest => simpa [splitsPair] using alone
      rw [List.cons_append, points_single whole, ih later, points_single alone, List.cons_append]
  | @pair first second rest high low ih =>
      have later : splitsPair rest back = false := by
        cases rest with
        | nil => simp [splitsPair]
        | cons third rest => simpa [splitsPair, List.getLast?_cons_cons] using apart
      rw [List.cons_append, List.cons_append, points_pair high low, ih later,
        points_pair high low, List.cons_append]

/-- The first code points of a text are code points by themselves. -/
theorem points_take (text : List CodeUnit) (k : Nat) :
    points ((points text).take k).flatten = (points text).take k ∧
      splitsPair ((points text).take k).flatten ((points text).drop k).flatten = false := by
  induction text using points_cases generalizing k with
  | nil => simp [splitsPair]
  | @single first rest apart ih =>
      rw [points_single apart]
      cases k with
      | zero => simp [splitsPair]
      | succ k =>
          obtain ⟨same, cut⟩ := ih k
          rw [List.take_succ_cons, List.drop_succ_cons, List.flatten_cons, List.singleton_append]
          cases few : ((points rest).take k).flatten with
          | nil =>
              have nothing : ((points rest).take k) = [] := by rw [← same, few]; rfl
              have whole : ((points rest).drop k).flatten = rest := by
                rw [← List.nil_append ((points rest).drop k), ← nothing, List.take_append_drop,
                  flatten_points]
              rw [whole, nothing]
              exact ⟨rfl, apart⟩
          | cons second more =>
              have start : splitsPair [first] (second :: more) = false := by
                have begins : rest.head? = some second := by
                  rw [← flatten_points rest, ← List.take_append_drop k (points rest),
                    List.flatten_append, few]
                  rfl
                simpa [splitsPair, begins] using apart
              rw [few] at same cut
              rw [points_single start, same]
              refine ⟨rfl, ?_⟩
              simpa [splitsPair, List.getLast?_cons_cons] using cut
  | @pair first second rest high low ih =>
      rw [points_pair high low]
      cases k with
      | zero => simp [splitsPair]
      | succ k =>
          obtain ⟨same, cut⟩ := ih k
          rw [List.take_succ_cons, List.drop_succ_cons, List.flatten_cons]
          refine ⟨?_, ?_⟩
          · rw [List.cons_append, List.cons_append, List.nil_append, points_pair high low, same]
          · cases few : ((points rest).take k).flatten with
            | nil => simp [splitsPair, isHigh_of_isLow low]
            | cons third more =>
                rw [few] at cut
                simpa [splitsPair, List.getLast?_cons_cons] using cut

/-! ## Bytes -/

@[simp] theorem byteLength_nil : byteLength [] = 0 := rfl

@[simp] theorem byteLength_singleton (unit : CodeUnit) : byteLength [unit] = unitBytes unit := by
  simp [byteLength, pointBytes]

theorem byteLength_append (apart : splitsPair front back = false) :
    byteLength (front ++ back) = byteLength front + byteLength back := by
  simp [byteLength, points_append apart]

theorem byteLength_pair {first second : CodeUnit} (high : isHigh first = true)
    (low : isLow second = true) : byteLength [first, second] = 4 := by
  simp [byteLength, points_pair high low, pointBytes]

/-- A unit behind a text adds its bytes, or makes four bytes of the three before it. -/
theorem byteLength_concat (text : List CodeUnit) (unit : CodeUnit) :
    byteLength text ≤ byteLength (text ++ [unit]) := by
  by_cases apart : splitsPair text [unit] = false
  · rw [byteLength_append apart]
    omega
  · obtain ⟨high, low⟩ := Bool.and_eq_true_iff.mp (Bool.of_not_eq_false apart)
    induction text using List.reverseRecOn with
    | nil => simp at high
    | append_singleton front last _ =>
        have isLast : isHigh last = true := by simpa using high
        have isNext : isLow unit = true := by simpa using low
        have before : splitsPair front [last] = false := by
          simp only [splitsPair, List.head?_cons, Option.any_some, Bool.and_eq_false_iff]
          right
          by_contra found
          rw [isHigh_of_isLow (Bool.of_not_eq_false found)] at isLast
          cases isLast
        have both : splitsPair front [last, unit] = false := by simpa [splitsPair] using before
        rw [List.append_assoc, List.singleton_append, byteLength_append before,
          byteLength_append both, byteLength_pair isLast isNext, byteLength_singleton,
          unitBytes_high isLast]
        omega

theorem byteLength_take_le (text : List CodeUnit) {i j : Nat} (le : i ≤ j) :
    byteLength (text.take i) ≤ byteLength (text.take j) := by
  induction j, le using Nat.le_induction with
  | base => exact Nat.le_refl _
  | succ j _ ih =>
      refine ih.trans ?_
      cases here : text[j]? with
      | none =>
          rw [List.take_of_length_le (List.getElem?_eq_none_iff.mp here),
            List.take_of_length_le (by have := List.getElem?_eq_none_iff.mp here; omega)]
      | some unit =>
          rw [List.take_add_one, here]
          exact byteLength_concat _ _

theorem length_le_byteLength (text : List CodeUnit) : text.length ≤ byteLength text := by
  induction text using points_cases with
  | nil => exact Nat.le_refl _
  | @single first rest apart ih =>
      have bytes := (unitBytes_bounds first).1
      have sum : byteLength (first :: rest) = unitBytes first + byteLength rest := by
        simp [byteLength, points_single apart, pointBytes]
      rw [sum, List.length_cons]
      omega
  | @pair first second rest high low ih =>
      have sum : byteLength (first :: second :: rest) = 4 + byteLength rest := by
        simp [byteLength, points_pair high low, pointBytes]
      rw [sum, List.length_cons, List.length_cons]
      omega

end AdCoder.Foundation.Utf16
