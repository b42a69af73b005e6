import AdCoder.Foundation.Loops
import AdCoder.Foundation.RegexLaws

/-!
# The terminal tool-transport classifier

A text is a list of UTF-16 code units, and all positions and lengths count
them. A unit is read as a character; half of a surrogate pair is read as the
null character, which no pattern here tells from another plain one.
-/

namespace AdCoder.Runner

open AdCoder.Foundation
open AdCoder.Foundation.Regex (literal optional sequence spaces space star plus choice isSpace)

abbrev CodeUnit := UInt16

def readUnit (unit : CodeUnit) : Char := Char.ofNat unit.toNat

def dsml : String := "｜｜DSML｜｜"

def transportScanLimit : Nat := 20000

/-- How much of the text a bracketed tag is looked for in. -/
def tagSlice : Nat := 512

/-- The name in a tag; `tool_calls` is cast to the type of the three others. -/
inductive ToolProtoKind where
  | toolCalls
  | calls
  | invoke
  | parameter
  deriving DecidableEq, Repr

structure ToolProtoTag where
  isOpen : Bool
  kind : ToolProtoKind
  /-- Index just past the tag. -/
  pastEnd : Nat
  deriving DecidableEq, Repr

/-! ## Reading a text -/

def charAt (source : List Char) (index : Nat) : Option Char := source[index]?

/-- `source.charAt(index - 1)`, which is no character at the start. -/
def charBefore (source : List Char) : Nat → Option Char
  | 0 => none
  | index + 1 => charAt source index

def startsWith (source search : List Char) (index : Nat) : Bool :=
  search.isPrefixOf (source.drop index)

/-- `source.indexOf(search, index)` of a search text that is not empty. -/
def indexOf (source search : List Char) (index : Nat) : Option Nat :=
  ((List.range (source.length - index)).map (index + ·)).find? (startsWith source search)

/-- The loop `while (i < source.length && /\s/.test(source.charAt(i))) i++`. -/
def skipSpaces (source : List Char) (index : Nat) : Nat :=
  index + ((source.drop index).takeWhile isSpace).length

/-! ## Tags -/

/-- What the groups of the tag pattern capture, and the length of the match. -/
structure TagMatch where
  slash : Bool
  kind : ToolProtoKind
  attributes : List Char
  length : Nat

/-- The optional delimiter in front of a name. -/
def optionalDelimiter : Regex := optional (.seq (literal dsml) spaces)

def tagAttributes : Regex :=
  optional (.seq (plus space) (.rep false 0 none (.one fun x => x != '<' && x != '>')))

def tagNames : List (String × ToolProtoKind) :=
  [("tool_calls", .toolCalls), ("calls", .calls), ("invoke", .invoke), ("parameter", .parameter)]

/-- The matches of the tag pattern at the start of a slice, in the engine's order. -/
def tagMatches (slice : List Char) : List TagMatch :=
  ((literal "<").ends ⟨[], slice⟩).flatMap fun bracket =>
    [(true, literal "/"), (false, .empty)].flatMap fun (slash, mark) =>
      ((sequence [mark, spaces, optionalDelimiter]).ends bracket).flatMap fun front =>
        tagNames.flatMap fun (name, kind) =>
          ((literal name).ends front).flatMap fun named =>
            (tagAttributes.ends named).flatMap fun attributed =>
              ((literal ">").ends attributed).map fun past =>
                { slash, kind
                  attributes := named.after.take (named.after.length - attributed.after.length)
                  length := slice.length - past.after.length }

def wellAttributed : Regex := sequence
  [.atStart, spaces, literal "name=\"", plus (.one fun x => x != '"' && !isSpace x), literal "\"",
   optional (sequence [plus space, literal "string=\"", choice [literal "true", literal "false"],
     literal "\""]),
   .atEnd]

/-- An allow-listed tag at the index: opens well-attributed, closes bare. -/
def bracketedToolProtoTag (text : List Char) (index : Nat) : Option ToolProtoTag :=
  match (tagMatches ((text.drop index).take tagSlice)).head? with
  | none => none
  | some found =>
      if found.slash then
        if trimList found.attributes = [] then
          some { isOpen := false, kind := found.kind, pastEnd := index + found.length }
        else none
      else if found.kind = .calls ∧ trimList found.attributes ≠ [] then none
      else if (found.kind = .invoke ∨ found.kind = .parameter) ∧
          wellAttributed.test (String.ofList found.attributes) = false then none
      else some { isOpen := true, kind := found.kind, pastEnd := index + found.length }

/-- The bare channel delimiter opens a region only when no calls region is open. -/
def bareDelimiterTag (text : List Char) (index : Nat) (stack : List ToolProtoKind)
    (seenCallsOpen : Bool) : Option ToolProtoTag :=
  if !startsWith text dsml.toList index || charBefore text index = some '<' then none
  else
    some {
      isOpen := !seenCallsOpen && !stack.contains .calls
      kind := .calls
      pastEnd := index + dsml.toList.length }

/-! ## The scan -/

/-- The variables of the scan; the top of the stack comes first. -/
structure Scan where
  stack : List ToolProtoKind
  sawInvoke : Bool
  seenCallsOpen : Bool
  i : Nat
  deriving DecidableEq, Repr

def toolProtoTag (source : List Char) (scan : Scan) (i : Nat) : Option ToolProtoTag :=
  (bracketedToolProtoTag source i).or
    (bareDelimiterTag source i scan.stack scan.seenCallsOpen)

/-- What the loop does with a tag. -/
def takeTag (scan : Scan) (tag : ToolProtoTag) : Iteration Scan Bool :=
  if tag.isOpen then
    .continues {
      stack := tag.kind :: scan.stack
      sawInvoke := scan.sawInvoke || tag.kind == .invoke
      seenCallsOpen := scan.seenCallsOpen || tag.kind == .calls
      i := tag.pastEnd }
  else
    match scan.stack with
    | [] => .returns false
    | top :: rest =>
        if top = tag.kind then .continues { scan with stack := rest, i := tag.pastEnd }
        else .returns false

/-- One iteration of the loop in `parsesTerminalToolEnvelope`. -/
def scanIteration (source : List Char) (scan : Scan) : Iteration Scan Bool :=
  let i := skipSpaces source scan.i
  if source.length ≤ i then .returns (scan.sawInvoke && scan.stack.isEmpty)
  else
    match toolProtoTag source scan i with
    | some tag => takeTag scan tag
    | none =>
        -- Free text is structural only between a parameter's tags.
        if scan.stack.head? = some .parameter then
          match indexOf source ['<'] i with
          | none => .returns false
          | some next => .continues { scan with i := next }
        else .returns false

def Scan.first (start : Nat) : Scan :=
  { stack := [], sawInvoke := false, seenCallsOpen := false, i := start }

/-- No result means that the loop has not returned within the fuel. -/
def parsesTerminalToolEnvelope (fuel : Nat) (source : List Char) (start : Nat) : Option Bool :=
  Loop.run (scanIteration source) fuel (Scan.first start)

/-! ## The classifier -/

def opens : Regex := sequence
  [literal "<", optionalDelimiter,
   choice [literal "tool_calls", literal "calls", literal "invoke"],
   .ahead (choice [literal ">", space])]

/-- The start of every match that `matchAll` yields, in order. -/
def matchStarts (pattern : Regex) : Nat → Cursor → List Nat
  | 0, _ => []
  | fuel + 1, c =>
      match pattern.ends c with
      | e :: _ => c.before.length :: matchStarts pattern fuel e
      | [] =>
          match c.after with
          | [] => []
          | x :: rest => matchStarts pattern fuel ⟨x :: c.before, rest⟩

/-- The part of a text that is classified. -/
def transportSource (text : List CodeUnit) : List Char :=
  let trimmed := trimEnd (text.map readUnit)
  if transportScanLimit < trimmed.length then trimmed.drop (trimmed.length - transportScanLimit)
  else trimmed

def openings (source : List Char) : List Nat :=
  matchStarts opens (source.length + 1) ⟨[], source⟩

/-- The loop over the matches of `opens`. -/
def tryOpenings (fuel : Nat) (source : List Char) : List Nat → Option Bool
  | [] => some false
  | start :: rest =>
      match parsesTerminalToolEnvelope fuel source start with
      | none => none
      | some true => some true
      | some false => tryOpenings fuel source rest

/-- The loop over the bare delimiters, for at most as many rounds as the first number says. -/
def tryDelimiters (fuel : Nat) (source : List Char) : Nat → Nat → Option Bool
  | 0, _ => none
  | rounds + 1, position =>
      match indexOf source dsml.toList position with
      | none => some false
      | some index =>
          if charBefore source index = some '<' then
            tryDelimiters fuel source rounds (index + dsml.toList.length)
          else
            match parsesTerminalToolEnvelope fuel source index with
            | none => none
            | some true => some true
            | some false => tryDelimiters fuel source rounds (index + dsml.toList.length)

/-- No result means that some loop has not returned within the fuel. -/
def textHasUnrecoveredToolTransport (fuel : Nat) (text : List CodeUnit) : Option Bool :=
  if trimEnd (text.map readUnit) = [] then some false
  else
    match tryOpenings fuel (transportSource text) (openings (transportSource text)) with
    | none => none
    | some true => some true
    | some false => tryDelimiters fuel (transportSource text) fuel 0

end AdCoder.Runner
