import AdCoder.Foundation.Json
import AdCoder.Web.HtmlText

/-!
# Links, images and results of a page

Anchors and images are found by global patterns; a list of matches is cut off once enough of them
are taken. `new URL` and the reading of a number are those of the host. A throw of the decoding
of an address is caught, every other one is not.
-/

namespace AdCoder.Web

open Foundation

instance : LawfulBEq Units := inferInstance

/-- What is read of an address. That of a page names its host after two slashes. -/
structure ParsedUrl where
  protocol : Units
  href : Units
  uddg : Option Units
  special : protocol = "http:".toList ∨ protocol = "https:".toList →
    protocol ++ ['/', '/'] <+: href

structure PageHost where
  parseUrl : Units → Units → Option ParsedUrl
  number : Units → JsNumber

structure PageLimits where
  maxTextChars : Nat
  maxLinks : Nat
  maxImages : Nat
  maxResults : Nat
  positive : 0 < maxTextChars ∧ 0 < maxLinks ∧ 0 < maxImages ∧ 0 < maxResults

structure PageLink where
  text : Units
  url : Units

structure PageImage where
  alt : Units
  url : Units

structure ExtractedPage where
  text : Units
  links : List PageLink
  images : List PageImage

/-! ## Patterns -/

/-- The matches of consecutive parts from here, in the engine's order, with the text of each
part. -/
def splits : List Regex → Cursor → List (List Units × Cursor)
  | [], c => [([], c)]
  | part :: parts, c => (part.ends c).flatMap fun e => (splits parts e).map fun found =>
      (c.after.take (c.after.length - e.after.length) :: found.1, found.2)

def matchFrom (parts : List Regex) : Nat → Cursor → List (List Units)
  | 0, _ => []
  | fuel + 1, c =>
      match splits parts c with
      | (texts, e) :: _ => texts :: matchFrom parts fuel e
      | [] =>
          match c.after with
          | [] => []
          | x :: rest => matchFrom parts fuel ⟨x :: c.before, rest⟩

/-- `matchAll`. The patterns used here never match the empty text. -/
def matchAll (parts : List Regex) (text : Units) : List (List Units) :=
  matchFrom parts (text.length + 1) ⟨[], text⟩

def inTag : Regex := .one (· != '>')
def quoteMark : Regex := .one fun x => x == '"' || x == '\''
def unquoted : Regex := .one fun x => !(x == '"' || x == '\'')
/-- The lazy `[\s\S]*?`. -/
def anything : Regex := .rep false 0 none (.one fun _ => true)
def closingAnchor : Regex := Regex.sequence [Regex.literal "</", Regex.literalI "a", Regex.literal ">"]

/-- An anchor: its attributes are the second part, its body the fourth. -/
def anchor : List Regex :=
  [Regex.sequence [Regex.literal "<", Regex.literalI "a", Regex.wordBoundary], Regex.star inTag,
    Regex.literal ">", anything, closingAnchor]

/-- An image: its attributes are the second part. -/
def image : List Regex :=
  [Regex.sequence [Regex.literal "<", Regex.literalI "img", Regex.wordBoundary], Regex.star inTag,
    Regex.literal ">"]

/-- A result: its address is the second part, its title the fourth. -/
def resultAnchor : List Regex :=
  [Regex.sequence [Regex.literal "<", Regex.literalI "a", Regex.plus inTag,
      Regex.literalI "class=", quoteMark, Regex.star unquoted, Regex.literalI "result__a",
      Regex.star unquoted, quoteMark, Regex.plus inTag, Regex.literalI "href=", quoteMark],
    Regex.plus unquoted, Regex.sequence [quoteMark, Regex.star inTag, Regex.literal ">"],
    anything, closingAnchor]

/-- The value of the first attribute of a name, between quotes of one kind or bare. -/
def htmlAttribute (attributes : Units) (name : String) : Option Units :=
  let opening := Regex.sequence [.alt Regex.atStart Regex.space, Regex.literalI name, Regex.spaces,
    Regex.literal "=", Regex.spaces]
  let quoted (mark : Char) := splits [.one (· == mark), Regex.star (.one (· != mark)),
    .one (· == mark)]
  let bare := splits [.empty, Regex.plus (.one fun x =>
    !(Regex.isSpace x || ['"', '\'', '=', '<', '>', '\x60'].contains x))]
  ((Regex.cursors [] attributes).flatMap fun c => (opening.ends c).flatMap fun e =>
    (quoted '"' e ++ quoted '\'' e ++ bare e).map fun found => found.1.getD 1 []).head?

/-- A picture that is named as no content. -/
def decorativeName : Regex :=
  Regex.sequence [.alt Regex.atStart edge,
    Regex.choice (["icon", "logo", "favicon", "sprite", "avatar", "tracking", "pixel"].map
      Regex.literalI), .alt edge Regex.atEnd]
where
  edge := .one fun x => !Regex.isWord x || x == '_' || x == '-'

/-! ## Extraction -/

section Extraction

variable (host : PageHost)

def isHttp (protocol : Units) : Bool :=
  protocol == "http:".toList || protocol == "https:".toList

/-- The test for `https?://` at the start. -/
def startsHttp (href : Units) : Bool :=
  ("http:".toList ++ ['/', '/']).isPrefixOf href || ("https:".toList ++ ['/', '/']).isPrefixOf href

def absoluteHttpUrl (value base : Units) : Option Units := do
  let decoded ← decodeHtml value
  let url ← host.parseUrl decoded base
  if isHttp url.protocol then some url.href else none

/-- The address of an anchor, if it has one. -/
def linkUrl (base : Units) (found : List Units) : Option Units := do
  let source ← htmlAttribute (found.getD 1 []) "href"
  absoluteHttpUrl host source base

/-- The address of an image, if it has one that is no data. -/
def imageUrl (base : Units) (found : List Units) : Option Units := do
  let source ← htmlAttribute (found.getD 1 []) "src"
  if "data:".toList.isPrefixOf source then none else absoluteHttpUrl host source base

/-- The first loop of `extractPage`. The addresses seen are those of the links taken. -/
def readLinks (base : Units) (maxLinks : Nat) :
    List (List Units) → List PageLink → Option (List PageLink)
  | [], links => some links
  | found :: rest, links =>
      match linkUrl host base found with
      | none => readLinks base maxLinks rest links
      | some url =>
          if url ∈ links.map (·.url) then readLinks base maxLinks rest links
          else
            match htmlToText (found.getD 3 []) 300 with
            | none => none
            | some text =>
                let taken := links ++ [⟨if text.isEmpty then url else text, url⟩]
                if maxLinks ≤ taken.length then some taken
                else readLinks base maxLinks rest taken

/-- A size in an attribute is a number of at most 64. -/
def smallSize (attributes : Units) (name : String) : Bool :=
  match (htmlAttribute attributes name).map host.number with
  | some (.finite size) => size ≤ 64
  | _ => false

def decorative (url alt attributes : Units) : Bool :=
  ((Regex.cursors [] (url ++ ' ' :: alt)).any fun c => !(decorativeName.ends c).isEmpty) ||
    smallSize host attributes "width" || smallSize host attributes "height"

/-- The second loop of `extractPage`. -/
def readImages (base : Units) (maxImages : Nat) :
    List (List Units) → List PageImage → Option (List PageImage)
  | [], images => some images
  | found :: rest, images =>
      match imageUrl host base found with
      | none => readImages base maxImages rest images
      | some url =>
          if url ∈ images.map (·.url) then readImages base maxImages rest images
          else
            match decodeHtml ((htmlAttribute (found.getD 1 []) "alt").getD []) with
            | none => none
            | some decoded =>
                let alt := trimList decoded
                if decorative host url alt (found.getD 1 []) then
                  readImages base maxImages rest images
                else
                  let taken := images ++ [⟨if alt.isEmpty then "image".toList else alt, url⟩]
                  if maxImages ≤ taken.length then some taken
                  else readImages base maxImages rest taken

def extractPage (html baseUrl : Units) (limits : PageLimits) : Option ExtractedPage := do
  let links ← readLinks host baseUrl limits.maxLinks (matchAll anchor html) []
  let images ← readImages host baseUrl limits.maxImages (matchAll image html) []
  let text ← htmlToText html limits.maxTextChars
  return ⟨text, links, images⟩

def searchBase : Units := "https://duckduckgo.com".toList

/-- The loop of `parseDuckDuckGoResults`. -/
def readResults (maxResults : Nat) : List (List Units) → List Units → Option (List Units)
  | [], results => some results
  | found :: rest, results =>
      match decodeHtml (found.getD 1 []) with
      | none => none
      | some source =>
          match host.parseUrl source searchBase with
          | none => readResults maxResults rest results
          | some parsed =>
              let href := parsed.uddg.getD parsed.href
              match htmlToText (found.getD 3 []) 500 with
              | none => none
              | some title =>
                  let taken := if title ≠ [] ∧ startsHttp href = true then
                    results ++ [title ++ '\n' :: href] else results
                  if maxResults ≤ taken.length then some taken
                  else readResults maxResults rest taken

def parseDuckDuckGoResults (html : Units) (maxResults : Nat) : Option (List Units) :=
  readResults host maxResults (matchAll resultAnchor html) []

end Extraction

end AdCoder.Web
