import AdCoder.Foundation.Regex
import Mathlib.Algebra.Ring.Int.Defs
import Mathlib.Algebra.Ring.Nat

/-!
# Addresses as texts

`isIP` tells which texts are addresses, and `isPrivateAddress` decides on the
text whether the tools may connect there. Over them stands the address as a
number: an address of four octets or of eight words.
-/

namespace AdCoder.Web

open Foundation

/-! ## Texts that are addresses -/

/-- The four numbers of a dotted address. -/
abbrev Octets := Nat × Nat × Nat × Nat

/-- A number below 256, written in decimal and without leading zeros. -/
def octet (text : List Char) : Option Nat :=
  (List.range 256).find? fun n => (toString n).toList == text

def ipv4 (text : List Char) : Option Octets :=
  match text.splitOn '.' with
  | [a, b, c, d] => do return (← octet a, ← octet b, ← octet c, ← octet d)
  | _ => none

def hexDigits : List Char :=
  ['0', '1', '2', '3', '4', '5', '6', '7', '8', '9', 'a', 'b', 'c', 'd', 'e', 'f']

/-- The value of a digit to base 16, of a text in lower case. -/
def digitValue (x : Char) : Option Nat := hexDigits.idxOf? x

def fromDigits (digits : List Nat) : Nat := digits.foldl (fun n digit => 16 * n + digit) 0

/-- A word: one to four digits. -/
def hexWord (text : List Char) : Option Nat :=
  if text ≠ [] ∧ text.length ≤ 4 then (text.mapM digitValue).map fromDigits else none

def twoWords (octets : Octets) : List Nat :=
  [256 * octets.1 + octets.2.1, 256 * octets.2.2.1 + octets.2.2.2]

/-- The words at the end of an address, where a dotted address may stand for the last two. -/
def lastWords : List (List Char) → Option (List Nat)
  | [] => some []
  | [last] => (hexWord last).map ([·]) <|> (ipv4 last).map twoWords
  | piece :: rest => do return (← hexWord piece) :: (← lastWords rest)

def pieces (text : List Char) : List (List Char) :=
  if text = [] then [] else text.splitOn ':'

/-- A text around its first two colons in a row. -/
def splitGap : List Char → Option (List Char × List Char)
  | ':' :: ':' :: rest => some ([], rest)
  | [] => none
  | x :: rest => (splitGap rest).map fun around => (x :: around.1, around.2)

/-- The eight words of an address: two colons in a row stand for the words left out. -/
def wordsOf (text : List Char) : Option (List Nat) :=
  match splitGap text with
  | none => (lastWords (text.splitOn ':')).filter (·.length = 8)
  | some (before, after) => do
      let front ← (pieces before).mapM hexWord
      let back ← lastWords (pieces after)
      if front.length + back.length ≤ 7 then
        some (front ++ List.replicate (8 - front.length - back.length) 0 ++ back)
      else none

def isZone (x : Char) : Bool := x.isAlphanum || x == '-' || x == '.' || x == ':'

/-- An address of eight words, with the zone it may name after a percent sign. -/
def ipv6 (text : List Char) : Option (List Nat) :=
  match text.dropWhile (· ≠ '%') with
  | [] => wordsOf text
  | _ :: zone =>
      if zone ≠ [] && zone.all isZone then wordsOf (text.takeWhile (· ≠ '%')) else none

/-- `toLowerCase`. -/
def lowerCase (text : String) : List Char := text.toList.map Char.toLower

/-- The number that a text stands for. -/
inductive IpAddress where
  | v4 (octets : Octets)
  | v6 (words : List Nat)
  deriving DecidableEq

def numeric (text : String) : Option IpAddress :=
  (ipv4 text.toList).map .v4 <|> (ipv6 (lowerCase text)).map .v6

/-- `isIP` of the host. -/
def isIP (text : String) : Nat :=
  match numeric text with
  | some (.v4 _) => 4
  | some (.v6 _) => 6
  | none => 0

/-! ## The check on texts -/

def leadingDigits : List Char → List Nat
  | [] => []
  | x :: rest =>
      match digitValue x.toLower with
      | some digit => digit :: leadingDigits rest
      | none => []

/-- A natural number as the nearest double, ties to even; `none` is infinite. -/
def toDouble (n : Nat) : Option Nat :=
  let unit := 2 ^ (n.log2 - 52)
  let down := n / unit
  let rounded := if 2 * (n % unit) < unit ∨ 2 * (n % unit) = unit ∧ down % 2 = 0 then down
    else down + 1
  if rounded * unit < 2 ^ 1024 then some (rounded * unit) else none

/-- The sign of a numeral and the text after it. -/
def splitSign : List Char → Int × List Char
  | '-' :: rest => (-1, rest)
  | '+' :: rest => (1, rest)
  | rest => (1, rest)

def dropRadix : List Char → List Char
  | '0' :: 'x' :: rest => rest
  | '0' :: 'X' :: rest => rest
  | rest => rest

/-- `Number.parseInt(text, 16)`, where it is an integer. -/
def parseHex (text : List Char) : Option Int :=
  let (sign, unsigned) := splitSign (text.dropWhile Regex.isSpace)
  match leadingDigits (dropRadix unsigned) with
  | [] => none
  | digits => (toDouble (fromDigits digits)).map fun n => sign * n

/-- The operand of a shift or of a bitwise and. -/
def toInt32 (n : Int) : Int := (n + 2 ^ 31) % 2 ^ 32 - 2 ^ 31

/-- `high >> 8`, `high & 255`, `low >> 8` and `low & 255`, with dots between them. -/
def dotted (high low : Int) : List Char :=
  ['.'].intercalate ([toInt32 high / 256, toInt32 high % 256, toInt32 low / 256,
    toInt32 low % 256].map fun n => (toString n).toList)

def privateOctets : Octets → Bool
  | (a, b, c, _) =>
      a == 0 || a == 10 || a == 127 || (a == 100 && 64 ≤ b && b ≤ 127) || (a == 169 && b == 254) ||
        (a == 172 && 16 ≤ b && b ≤ 31) || (a == 192 && b == 0) || (a == 192 && b == 168) ||
        (a == 192 && b == 0 && c == 2) || (a == 198 && (b == 18 || b == 19 || b == 51)) ||
        (a == 203 && b == 0 && c == 113) || 224 ≤ a

/-- The texts that an address must start with to be private. -/
def privatePrefixes : List String := ["fe8", "fe9", "fea", "feb", "fc", "fd", "2001:db8:", "ff"]

def privateText (normalized : List Char) : Bool :=
  normalized == "::".toList || normalized == "::1".toList ||
    privatePrefixes.any fun first => first.toList.isPrefixOf normalized

def mappedPrefix : List Char := "::ffff:".toList

/-- `isPrivateAddress` after its branch for mapped addresses. No text that the branch passes on
starts with a colon. -/
def isPrivatePlain (address : List Char) : Bool :=
  match ipv4 address with
  | some octets => privateOctets octets
  | none => privateText (address.map Char.toLower)

def isPrivateMapped (tail : List Char) : Bool :=
  if (ipv4 tail).isSome then isPrivatePlain tail
  else
    match tail.splitOn ':' with
    | [high, low] =>
        match parseHex high, parseHex low with
        | some high, some low => isPrivatePlain (dotted high low)
        | _, _ => true
    | _ => true

def isPrivateAddress (address : String) : Bool :=
  let normalized := lowerCase address
  if mappedPrefix.isPrefixOf normalized then isPrivateMapped (normalized.drop 7)
  else isPrivatePlain address.toList

/-! ## Reserved addresses -/

/-- Unspecified, loopback, private, link-local or multicast. -/
def ReservedOctets : Octets → Prop
  | (a, b, c, d) =>
      (a = 0 ∧ b = 0 ∧ c = 0 ∧ d = 0) ∨ a = 127 ∨
        (a = 10 ∨ a = 172 ∧ 16 ≤ b ∧ b ≤ 31 ∨ a = 192 ∧ b = 168) ∨ (a = 169 ∧ b = 254) ∨
        (224 ≤ a ∧ a ≤ 239)

/-- The first words of link-local, unique-local and multicast addresses. -/
def ReservedLead (word : Nat) : Prop :=
  (0xfe80 ≤ word ∧ word ≤ 0xfebf) ∨ (0xfc00 ≤ word ∧ word ≤ 0xfdff) ∨
    (0xff00 ≤ word ∧ word ≤ 0xffff)

/-- The address in the last two words. -/
def embedded (high low : Nat) : Octets := (high / 256, high % 256, low / 256, low % 256)

/-- A reserved address; the last two words may hold one of four octets, mapped or compatible. -/
def IpAddress.Reserved : IpAddress → Prop
  | .v4 octets => ReservedOctets octets
  | .v6 words =>
      words = [0, 0, 0, 0, 0, 0, 0, 0] ∨ words = [0, 0, 0, 0, 0, 0, 0, 1] ∨
        ReservedLead (words.headD 0) ∨
        ∃ mark high low, words = [0, 0, 0, 0, 0, mark, high, low] ∧ (mark = 0 ∨ mark = 0xffff) ∧
          ReservedOctets (embedded high low)

end AdCoder.Web
