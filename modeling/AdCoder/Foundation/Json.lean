import AdCoder.Foundation.Regex

/-!
# JSON values and their text

A number is a value of a binary floating-point type: not a number, an infinity
or a finite rational. How a numeral is rounded and how a number is printed are
left to a `NumberFormat`, so results hold for every rounding.
-/

namespace AdCoder.Foundation

inductive JsNumber where
  | nan
  | infinity (negative : Bool)
  | finite (value : Rat)
  deriving DecidableEq

namespace JsNumber

instance (n : Nat) : OfNat JsNumber n := ⟨.finite n⟩

/-- `Number.MAX_SAFE_INTEGER`. -/
def maxSafe : Nat := 9007199254740991

/-- `Number.isSafeInteger`. -/
def isSafeInteger : JsNumber → Bool
  | .finite q => q.den == 1 && q.num.natAbs ≤ maxSafe
  | _ => false

/-- `Number.isFinite`. -/
def isFinite : JsNumber → Bool
  | .finite _ => true
  | _ => false

/-- `n >= bound`; false for NaN. -/
def atLeast (bound : Rat) : JsNumber → Bool
  | .nan => false
  | .infinity negative => !negative
  | .finite q => bound ≤ q

end JsNumber

/-- A decoded JSON value. Object fields are listed once each, in key order. -/
inductive Json where
  | null
  | bool (value : Bool)
  | num (value : JsNumber)
  | str (value : String)
  | arr (items : List Json)
  | obj (fields : List (String × Json))

namespace Json

/-- Property access; an absent property is `undefined`. -/
def lookup (name : String) : List (String × Json) → Option Json
  | [] => none
  | (key, value) :: rest => if key = name then some value else lookup name rest

@[simp] theorem lookup_nil (name : String) : lookup name [] = none := rfl

@[simp] theorem lookup_cons (name key : String) (value : Json) (rest : List (String × Json)) :
    lookup name ((key, value) :: rest) = if key = name then some value else lookup name rest :=
  rfl

theorem lookup_eq_none {name : String} {fields : List (String × Json)}
    (fresh : name ∉ fields.map (·.1)) : lookup name fields = none := by
  induction fields with
  | nil => rfl
  | cons field rest ih =>
      obtain ⟨key, value⟩ := field
      rw [List.map_cons, List.mem_cons, not_or] at fresh
      rw [lookup_cons, if_neg (Ne.symm fresh.1)]
      exact ih fresh.2

/-- The text of a string value, if the property is one. -/
def asString? : Option Json → Option String
  | some (.str s) => some s
  | _ => none

/-- The elements of an array of strings, if every element is one. -/
def strings? : List Json → Option (List String)
  | [] => some []
  | .str s :: rest => (strings? rest).map (s :: ·)
  | _ :: _ => none

@[simp] theorem strings?_map_str (items : List String) :
    strings? (items.map .str) = some items := by
  induction items with
  | nil => rfl
  | cons s rest ih => simp [strings?, ih]

def hexDigit (n : Nat) : Char := "0123456789abcdef".toList.getD n '0'

/-- One character of a quoted string. -/
def escape (x : Char) : List Char :=
  if x = '"' then ['\\', '"']
  else if x = '\\' then ['\\', '\\']
  else if x.toNat = 8 then ['\\', 'b']
  else if x = '\t' then ['\\', 't']
  else if x = '\n' then ['\\', 'n']
  else if x.toNat = 12 then ['\\', 'f']
  else if x = '\r' then ['\\', 'r']
  else if x.toNat < 32 then
    ['\\', 'u', '0', '0', hexDigit (x.toNat / 16), hexDigit (x.toNat % 16)]
  else [x]

/-- `JSON.stringify` of a string. -/
def quote (text : String) : String :=
  String.ofList ('"' :: text.toList.flatMap escape ++ ['"'])

/-- The text of an object whose member values are printed already. -/
def objectText (members : List (String × String)) : String :=
  "\x7b" ++ ",".intercalate (members.map fun m => quote m.1 ++ ":" ++ m.2) ++ "\x7d"

def arrayText (items : List String) : String := "[" ++ ",".intercalate items ++ "]"

mutual
/-- `JSON.stringify` of a decoded value. -/
def stringify (showNumber : JsNumber → String) : Json → String
  | .null => "null"
  | .bool value => if value then "true" else "false"
  | .num value => if value.isFinite then showNumber value else "null"
  | .str value => quote value
  | .arr items => arrayText (stringifyItems showNumber items)
  | .obj fields => objectText (stringifyFields showNumber fields)

def stringifyItems (showNumber : JsNumber → String) : List Json → List String
  | [] => []
  | item :: rest => stringify showNumber item :: stringifyItems showNumber rest

def stringifyFields (showNumber : JsNumber → String) :
    List (String × Json) → List (String × String)
  | [] => []
  | (key, value) :: rest =>
      (key, stringify showNumber value) :: stringifyFields showNumber rest
end

end Json

/-- How the host reads a numeral and prints a number. -/
structure NumberFormat where
  read : List Char → JsNumber
  print : JsNumber → String

namespace JsonText

def skip (text : List Char) : List Char :=
  text.dropWhile fun x => x == ' ' || x == '\t' || x == '\n' || x == '\r'

def hexValue? (x : Char) : Option Nat :=
  if '0' ≤ x ∧ x ≤ '9' then some (x.toNat - 48)
  else if 'a' ≤ x ∧ x ≤ 'f' then some (x.toNat - 87)
  else if 'A' ≤ x ∧ x ≤ 'F' then some (x.toNat - 55)
  else none

/-- The four hexadecimal digits of a `\u` escape. -/
def unit? (a b c d : Char) : Option Nat := do
  let a ← hexValue? a
  let b ← hexValue? b
  let c ← hexValue? c
  let d ← hexValue? d
  return ((a * 16 + b) * 16 + c) * 16 + d

def simpleEscape? (x : Char) : Option Char :=
  if x = '"' ∨ x = '\\' ∨ x = '/' then some x
  else if x = 'b' then some (Char.ofNat 8)
  else if x = 'f' then some (Char.ofNat 12)
  else if x = 'n' then some '\n'
  else if x = 'r' then some '\r'
  else if x = 't' then some '\t'
  else none

/-- A `\u` escape starts either one character or a surrogate pair. A lone
surrogate has no character of its own and reads as U+FFFD. -/
def join (high low : Nat) : Char :=
  Char.ofNat (0x10000 + (high - 0xd800) * 0x400 + (low - 0xdc00))

/-- The rest of a string after its opening quote, to its closing quote. -/
def readString : Nat → List Char → List Char → Option (String × List Char)
  | 0, _, _ => none
  | _ + 1, _, [] => none
  | _ + 1, done, '"' :: rest => some (String.ofList done.reverse, rest)
  | fuel + 1, done, '\\' :: 'u' :: a :: b :: c :: d :: rest =>
      match unit? a b c d with
      | none => none
      | some high =>
          if 0xd800 ≤ high ∧ high < 0xdc00 then
            match rest with
            | '\\' :: 'u' :: a' :: b' :: c' :: d' :: tail =>
                match unit? a' b' c' d' with
                | some low =>
                    if 0xdc00 ≤ low ∧ low < 0xe000 then
                      readString fuel (join high low :: done) tail
                    else readString fuel (Char.ofNat 0xfffd :: done) rest
                | none => none
            | _ => readString fuel (Char.ofNat 0xfffd :: done) rest
          else if 0xdc00 ≤ high ∧ high < 0xe000 then
            readString fuel (Char.ofNat 0xfffd :: done) rest
          else readString fuel (Char.ofNat high :: done) rest
  | fuel + 1, done, '\\' :: x :: rest =>
      match simpleEscape? x with
      | none => none
      | some y => readString fuel (y :: done) rest
  | fuel + 1, done, x :: rest =>
      if x = '\\' ∨ x.toNat < 32 then none else readString fuel (x :: done) rest

/-- The characters a numeral can hold. -/
def isNumeral (x : Char) : Bool :=
  Regex.isDigit x || x == '-' || x == '+' || x == '.' || x == 'e' || x == 'E'

/-- The numeral grammar: sign, integer part, fraction, exponent. -/
def numeral : Regex := .sequence [
  .atStart, .optional (.literal "-"),
  .alt (.literal "0") (.seq (.one fun x => '1' ≤ x && x ≤ '9') (.star (.one Regex.isDigit))),
  .optional (.seq (.literal ".") .digits),
  .optional (.sequence [.oneOf "eE", .optional (.oneOf "+-"), .digits]), .atEnd]

/-- Keep the last value of a repeated key, at the place of its first. -/
def insert (key : String) (value : Json) : List (String × Json) → List (String × Json)
  | [] => [(key, value)]
  | (k, v) :: rest => if k = key then (k, value) :: rest else (k, v) :: insert key value rest

mutual
/-- One value and the text after it. -/
def readValue (format : NumberFormat) : Nat → List Char → Option (Json × List Char)
  | 0, _ => none
  | fuel + 1, text =>
      match skip text with
      | '{' :: rest =>
          match skip rest with
          | '}' :: tail => some (.obj [], tail)
          | _ => (readMembers format fuel [] rest).map fun r => (.obj r.1, r.2)
      | '[' :: rest =>
          match skip rest with
          | ']' :: tail => some (.arr [], tail)
          | _ => (readItems format fuel [] rest).map fun r => (.arr r.1, r.2)
      | '"' :: rest => (readString fuel [] rest).map fun r => (.str r.1, r.2)
      | 't' :: 'r' :: 'u' :: 'e' :: rest => some (.bool true, rest)
      | 'f' :: 'a' :: 'l' :: 's' :: 'e' :: rest => some (.bool false, rest)
      | 'n' :: 'u' :: 'l' :: 'l' :: rest => some (.null, rest)
      | other =>
          let digits := other.takeWhile isNumeral
          if numeral.test (String.ofList digits) then
            some (.num (format.read digits), other.drop digits.length)
          else none

/-- The members of an object after the ones already read. -/
def readMembers (format : NumberFormat) :
    Nat → List (String × Json) → List Char → Option (List (String × Json) × List Char)
  | 0, _, _ => none
  | fuel + 1, done, text =>
      match skip text with
      | '"' :: rest =>
          match readString fuel [] rest with
          | none => none
          | some (key, rest) =>
              match skip rest with
              | ':' :: rest =>
                  match readValue format fuel rest with
                  | none => none
                  | some (value, rest) =>
                      match skip rest with
                      | ',' :: rest => readMembers format fuel (insert key value done) rest
                      | '}' :: rest => some (insert key value done, rest)
                      | _ => none
              | _ => none
      | _ => none

/-- The items of an array after the ones already read. -/
def readItems (format : NumberFormat) :
    Nat → List Json → List Char → Option (List Json × List Char)
  | 0, _, _ => none
  | fuel + 1, done, text =>
      match readValue format fuel text with
      | none => none
      | some (value, rest) =>
          match skip rest with
          | ',' :: rest => readItems format fuel (done ++ [value]) rest
          | ']' :: rest => some (done ++ [value], rest)
          | _ => none
end

/-- `JSON.parse`; `none` is a SyntaxError. -/
def parse (format : NumberFormat) (text : List Char) : Option Json :=
  match readValue format (text.length + 1) text with
  | some (value, rest) => if (skip rest).isEmpty then some value else none
  | none => none

end JsonText

end AdCoder.Foundation
