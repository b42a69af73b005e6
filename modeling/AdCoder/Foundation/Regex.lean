import Mathlib.Data.List.Basic

/-!
# Backtracking regular expressions

The matcher returns every end position of a pattern in the order in which a
backtracking engine tries them: the first entry is the match such an engine
reports. A subject is a list of characters split at the current position, so
that assertions can look behind as well as ahead.
-/

namespace AdCoder.Foundation

/-- A position in a subject: the characters passed, latest first, and the rest. -/
structure Cursor where
  before : List Char
  after : List Char

/-- Patterns with greedy and lazy repetition, zero-width tests and lookahead. -/
inductive Regex where
  | empty
  | one (accepts : Char → Bool)
  | assert (holds : Cursor → Bool)
  | seq (first second : Regex)
  | alt (first second : Regex)
  | rep (greedy : Bool) (least : Nat) (most : Option Nat) (body : Regex)
  | ahead (body : Regex)

namespace Regex

/-- Repeat a matcher. Every round must consume a character, so `fuel` need not
exceed the length of the rest of the subject. -/
def iterate (step : Cursor → List Cursor) (greedy : Bool) :
    Nat → Nat → Option Nat → Cursor → List Cursor
  | 0, least, _, c => if least = 0 then [c] else []
  | fuel + 1, least, most, c =>
      let stop := if least = 0 then [c] else []
      let more := if most = some 0 then [] else
        ((step c).filter fun e => e.after.length < c.after.length).flatMap
          (iterate step greedy fuel (least - 1) (most.map (· - 1)))
      if greedy then more ++ stop else stop ++ more

/-- All end positions of a match that starts here, in the engine's order. -/
def ends : Regex → Cursor → List Cursor
  | .empty, c => [c]
  | .one accepts, c =>
      match c.after with
      | [] => []
      | x :: rest => if accepts x then [⟨x :: c.before, rest⟩] else []
  | .assert holds, c => if holds c then [c] else []
  | .seq first second, c => (first.ends c).flatMap second.ends
  | .alt first second, c => first.ends c ++ second.ends c
  | .rep greedy least most body, c =>
      iterate body.ends greedy c.after.length least most c
  | .ahead body, c => if (body.ends c).isEmpty then [] else [c]

/-- Every position of a subject, from its start. -/
def cursors : List Char → List Char → List Cursor
  | before, [] => [⟨before, []⟩]
  | before, x :: rest => ⟨before, x :: rest⟩ :: cursors (x :: before) rest

/-- Whether some position of the subject starts a match. -/
def test (r : Regex) (subject : String) : Bool :=
  (cursors [] subject.toList).any fun c => !(r.ends c).isEmpty

/-- Substitute a fixed text for the non-overlapping matches, left to right. -/
def replaceFrom (r : Regex) (substitute : List Char) : Nat → Cursor → List Char
  | 0, c => c.after
  | fuel + 1, c =>
      match r.ends c with
      | e :: _ => substitute ++ replaceFrom r substitute fuel e
      | [] =>
          match c.after with
          | [] => []
          | x :: rest => x :: replaceFrom r substitute fuel ⟨x :: c.before, rest⟩

/-- Global replacement. The patterns used here never match the empty text. -/
def replaceAll (r : Regex) (substitute subject : String) : String :=
  String.ofList
    (replaceFrom r substitute.toList (subject.toList.length + 1) ⟨[], subject.toList⟩)

/-- The texts that `body` consumes in the non-overlapping matches of the three
parts in sequence, left to right. -/
def captureFrom (opening body closing : Regex) : Nat → Cursor → List (List Char)
  | 0, _ => []
  | fuel + 1, c =>
      let found := (opening.ends c).flatMap fun o => (body.ends o).flatMap fun m =>
        (closing.ends m).map fun e => (o, m, e)
      match found with
      | (o, m, e) :: _ =>
          o.after.take (o.after.length - m.after.length) ::
            captureFrom opening body closing fuel e
      | [] =>
          match c.after with
          | [] => []
          | x :: rest => captureFrom opening body closing fuel ⟨x :: c.before, rest⟩

/-- A fixed text. -/
def literal (text : String) : Regex :=
  text.toList.foldr (fun x r => .seq (.one (· == x)) r) .empty

def lower (x : Char) : Char := if 'A' ≤ x ∧ x ≤ 'Z' then Char.ofNat (x.toNat + 32) else x

/-- A fixed text under the `i` flag. -/
def literalI (text : String) : Regex :=
  text.toList.foldr (fun x r => .seq (.one fun y => lower y == lower x) r) .empty

def sequence (parts : List Regex) : Regex := parts.foldr .seq .empty

/-- The alternatives in order; no alternative matches nothing. -/
def choice : List Regex → Regex
  | [] => .assert fun _ => false
  | [r] => r
  | r :: rest => .alt r (choice rest)

def star (r : Regex) : Regex := .rep true 0 none r
def plus (r : Regex) : Regex := .rep true 1 none r
def optional (r : Regex) : Regex := .rep true 0 (some 1) r

def isLetter (x : Char) : Bool := ('a' ≤ x && x ≤ 'z') || ('A' ≤ x && x ≤ 'Z')
def isDigit (x : Char) : Bool := '0' ≤ x && x ≤ '9'
def isAlnum (x : Char) : Bool := isLetter x || isDigit x
/-- The class `\w`. -/
def isWord (x : Char) : Bool := isAlnum x || x == '_'
/-- The class `\s`, which is also what `trim` removes. -/
def isSpace (x : Char) : Bool :=
  x == ' ' || ('\t' ≤ x && x ≤ '\r') || x.toNat == 0xa0 || x.toNat == 0x1680 ||
    (0x2000 ≤ x.toNat && x.toNat ≤ 0x200a) || x.toNat == 0x2028 || x.toNat == 0x2029 ||
    x.toNat == 0x202f || x.toNat == 0x205f || x.toNat == 0x3000 || x.toNat == 0xfeff
def isLineBreak (x : Char) : Bool :=
  x == '\n' || x == '\r' || x.toNat == 0x2028 || x.toNat == 0x2029

def space : Regex := .one isSpace
def spaces : Regex := star space
def digits : Regex := plus (.one isDigit)
def oneOf (chars : String) : Regex := .one fun x => chars.toList.contains x

/-- `^` without the `m` flag. -/
def atStart : Regex := .assert fun c => c.before.isEmpty
/-- `$` without the `m` flag. -/
def atEnd : Regex := .assert fun c => c.after.isEmpty
/-- `^` with the `m` flag. -/
def atLineStart : Regex := .assert fun c =>
  match c.before with
  | [] => true
  | x :: _ => isLineBreak x
/-- `\b`. -/
def wordBoundary : Regex := .assert fun c =>
  let behind := match c.before with | [] => false | x :: _ => isWord x
  let front := match c.after with | [] => false | x :: _ => isWord x
  behind != front
/-- A negative lookbehind for one character of a class. -/
def notBehind (p : Char → Bool) : Regex := .assert fun c =>
  match c.before with
  | [] => true
  | x :: _ => !p x

end Regex

/-- `String.prototype.trim`. -/
def trimList (text : List Char) : List Char :=
  ((text.dropWhile Regex.isSpace).reverse.dropWhile Regex.isSpace).reverse

/-- `String.prototype.trimEnd`. -/
def trimEnd (text : List Char) : List Char := (text.reverse.dropWhile Regex.isSpace).reverse

def trim (text : String) : String := String.ofList (trimList text.toList)

/-- The code units of a text in UTF-16, by which `sort` compares. -/
def codeUnits (text : String) : List Nat := text.toList.flatMap fun x =>
  if x.toNat < 0x10000 then [x.toNat]
  else [0xd800 + (x.toNat - 0x10000) / 0x400, 0xdc00 + (x.toNat - 0x10000) % 0x400]

theorem codeUnits_append (left right : String) :
    codeUnits (left ++ right) = codeUnits left ++ codeUnits right := by
  rw [codeUnits, String.toList_append, List.flatMap_append]
  rfl

theorem codeUnits_pos {text : String} (ne : text ≠ "") : 0 < (codeUnits text).length := by
  cases characters : text.toList with
  | nil => exact absurd (String.toList_eq_nil_iff.mp characters) ne
  | cons x rest =>
      simp only [codeUnits, characters, List.flatMap_cons, List.length_append]
      split <;> simp <;> omega

/-- Insert a text before the first one that is greater. -/
def insertText (text : String) : List String → List String
  | [] => [text]
  | other :: rest =>
      if codeUnits text < codeUnits other then text :: other :: rest
      else other :: insertText text rest

/-- `Array.prototype.sort` without a comparison. -/
def sortText (texts : List String) : List String :=
  texts.foldl (fun sorted text => insertText text sorted) []

/-- `Buffer.byteLength` of a text in UTF-8. -/
def byteLength (text : String) : Nat :=
  text.utf8ByteSize

end AdCoder.Foundation
