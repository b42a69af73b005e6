import AdCoder.Foundation.JsonLaws
import AdCoder.ProjectOperations.FollowUps

/-!
# The lock file of a documentation destination

The lock holds one line of JSON with the id of the process that created it. A
part of the line that lacks the closing brace names nobody.
-/

namespace AdCoder.ProjectOperations

open Foundation

/-- A process id: a positive safe integer. -/
def Pid : Type := { n : Nat // 0 < n ∧ n ≤ JsNumber.maxSafe }

instance : DecidableEq Pid := 
  inferInstanceAs (DecidableEq { n : Nat // 0 < n ∧ n ≤ JsNumber.maxSafe })

def pidObject (pid : Pid) : Json := .obj [("pid", .num (.finite pid.val))]

/-- What the creator of a lock writes to it. -/
def lockText (format : NumberFormat) (pid : Pid) : List Char :=
  (Json.stringify format.print (pidObject pid) ++ "\n").toList

/-- The `pid` of the parsed lock, if it is a positive safe integer. -/
def lockHolder (format : NumberFormat) (text : List Char) : Option Pid :=
  match JsonText.parse format text with
  | some (.obj fields) =>
      match Json.lookup "pid" fields with
      | some (.num (.finite q)) =>
          if h : 0 < q.num.toNat ∧ q.num.toNat ≤ JsNumber.maxSafe then
            if (JsNumber.finite q).isSafeInteger then some ⟨q.num.toNat, h⟩ else none
          else none
      | _ => none
  | _ => none

section Laws

variable {format : NumberFormat}

/-- The record up to the number. -/
def recordStart : List Char := ['{', '"', 'p', 'i', 'd', '"', ':']

def pidDigits (pid : Pid) : List Char := (toString pid.val).toList

/-- The record without the line end. -/
def lockRecord (pid : Pid) : List Char := recordStart ++ (pidDigits pid ++ ['}'])

theorem lockText_eq (decimal : format.Decimal) (pid : Pid) :
    lockText format pid = lockRecord pid ++ ['\n'] := by
  have name : Json.quote "pid" = "\"pid\"" := by decide +kernel
  have printed : Json.stringify format.print (pidObject pid) =
      "\x7b" ++ ("\"pid\"" ++ ":" ++ toString pid.val) ++ "\x7d" := by
    simp only [pidObject, Json.stringify, Json.stringifyFields, Json.objectText, JsNumber.isFinite,
      if_true, decimal.print pid.val pid.property.2, List.map_cons, List.map_nil, name]
    rfl
  rw [lockText, printed]
  simp only [String.toList_append, lockRecord, recordStart, pidDigits]
  rfl

/-- The value after the key decides how the record reads. -/
theorem parse_recordStart (text : List Char) :
    JsonText.parse format (recordStart ++ text) =
      match JsonText.readMembers format (text.length + 7) [] (recordStart.tail ++ text) with
      | some (members, rest) =>
          if (JsonText.skip rest).isEmpty then some (.obj members) else none
      | none => none := by
  have value : JsonText.readValue format (text.length + 8) (recordStart ++ text) =
      (JsonText.readMembers format (text.length + 7) [] (recordStart.tail ++ text)).map
        fun r => (.obj r.1, r.2) := rfl
  have length : (recordStart ++ text).length + 1 = text.length + 8 := by
    simp [recordStart]
  rw [JsonText.parse, length, value]
  cases JsonText.readMembers format (text.length + 7) [] (recordStart.tail ++ text) <;> rfl

theorem readMembers_recordStart (text : List Char) :
    JsonText.readMembers format (text.length + 7) [] (recordStart.tail ++ text) =
      match JsonText.readValue format (text.length + 6) text with
      | none => none
      | some (value, rest) =>
          match JsonText.skip rest with
          | ',' :: rest =>
              JsonText.readMembers format (text.length + 6) [("pid", value)] rest
          | '}' :: rest => some ([("pid", value)], rest)
          | _ => none := rfl

/-- The whole record names its process, with or without the line end. -/
theorem lockHolder_record (decimal : format.Decimal) (pid : Pid) {tail : List Char}
    (blank : JsonText.skip tail = []) :
    lockHolder format (lockRecord pid ++ tail) = some pid := by
  have stop : ∀ x ∈ ('}' :: tail).head?, JsonText.isNumeral x = false := by
    intro x hx
    obtain rfl := Option.some.inj hx
    decide
  have nonempty : pidDigits pid ≠ [] := by
    obtain ⟨lead, digits, hsplit, _⟩ := JsonText.digits_of_pos pid.val pid.property.1
    rw [pidDigits, hsplit]
    simp
  have number := JsonText.readValue_digits format
    (JsonText.isDigit_toString pid.property.1) stop (fun empty => absurd empty nonempty)
    ((pidDigits pid ++ '}' :: tail).length + 5)
  rw [String.ofList_toList, if_pos (JsonText.numeral_toString pid.property.1),
    decimal.read pid.val pid.property.2] at number
  have parsed : JsonText.parse format (lockRecord pid ++ tail) = some (pidObject pid) := by
    have split : lockRecord pid ++ tail = recordStart ++ (pidDigits pid ++ '}' :: tail) := by
      simp [lockRecord]
    rw [split, parse_recordStart, readMembers_recordStart]
    simp only [pidDigits] at number ⊢
    rw [number]
    have close : JsonText.skip ('}' :: tail) = '}' :: tail := rfl
    simp only [close, blank]
    rfl
  have safe : (JsNumber.finite (pid.val : Rat)).isSafeInteger = true := by
    simp [JsNumber.isSafeInteger, pid.property.2]
  simp [lockHolder, parsed, pidObject, pid.property, safe]
  rfl

/-- A part of the record that lacks its closing brace names nobody. -/
theorem lockHolder_part {pid : Pid} {n : Nat} (short : n < (lockRecord pid).length) :
    lockHolder format ((lockRecord pid).take n) = none := by
  suffices torn : JsonText.parse format ((lockRecord pid).take n) = none by
    simp only [lockHolder, torn]
  by_cases start : n ≤ 7
  · have part : (lockRecord pid).take n = recordStart.take n := by
      rw [lockRecord, List.take_append_of_le_length]
      exact start
    rw [part]
    have table : ∀ m ≤ 7, JsonText.parse format (recordStart.take m) = none := by
      intro m hm
      match m, hm with
      | 0, _ | 1, _ | 2, _ | 3, _ | 4, _ | 5, _ | 6, _ | 7, _ => rfl
    exact table n start
  · have part : (lockRecord pid).take n = recordStart ++ (pidDigits pid).take (n - 7) := by
      simp only [lockRecord, List.length_append, List.length_cons, List.length_nil] at short
      have seven : recordStart.length = 7 := rfl
      rw [lockRecord, List.take_append, List.take_of_length_le (by omega), seven,
        List.take_append_of_le_length (by omega)]
    have digitsOnly : ∀ x ∈ (pidDigits pid).take (n - 7), Regex.isDigit x = true := by
      intro x hx
      exact JsonText.isDigit_toString pid.property.1 x (List.mem_of_mem_take hx)
    have stop : ∀ x ∈ ([] : List Char).head?, JsonText.isNumeral x = false := by simp
    have number := JsonText.readValue_digits format digitsOnly stop (fun _ => rfl) (((pidDigits pid).take (n - 7)).length + 5)
    rw [List.append_nil] at number
    rw [part, parse_recordStart, readMembers_recordStart]
    rw [number]
    split_ifs
    · rfl
    · rfl

/-- A lock that was written to its closing brace names its creator. -/
theorem lockHolder_written (decimal : format.Decimal) {pid : Pid} {n : Nat}
    (written : (lockRecord pid).length ≤ n) :
    lockHolder format ((lockText format pid).take n) = some pid := by
  have whole : (lockText format pid).take n = lockRecord pid ++ ['\n'].take
      (n - (lockRecord pid).length) := by
    rw [lockText_eq decimal, List.take_append, List.take_of_length_le written]
  rw [whole]
  apply lockHolder_record decimal
  cases n - (lockRecord pid).length with
  | zero => rfl
  | succ m =>
      rw [List.take_of_length_le (by simp)]
      rfl

/-- Whatever part of a lock was written, it names its creator or nobody. -/
theorem lockHolder_take (decimal : format.Decimal) {pid holder : Pid} {n : Nat}
    (h : lockHolder format ((lockText format pid).take n) = some holder) : holder = pid := by
  by_cases short : n < (lockRecord pid).length
  · rw [lockText_eq decimal, List.take_append_of_le_length (by omega), lockHolder_part short] at h
    cases h
  · rw [lockHolder_written decimal (by omega)] at h
    exact (Option.some.inj h).symm

end Laws

end AdCoder.ProjectOperations
