import AdCoder.SessionManager.Bindings

/-!
# Display names

A name is screened for secrets, stripped of escape sequences and of what cannot
be seen, and cut to a number of code points.
-/

namespace AdCoder.SessionManager

open Foundation Foundation.Regex

/-- The Unicode general categories that the host's regular expressions know: `\p{Cf}`, and
what `\p{L}`, `\p{N}`, `\p{Zs}`, `\p{P}` and `\p{S}` cover together. -/
structure CharClasses where
  format : Char → Bool
  visible : Char → Bool

/-- `MANUAL_NAME_MAX_LENGTH`. -/
def manualNameMaxLength : Int := 64

/-! ## Escape sequences -/

/-- A class of one range. -/
def within (low high : Nat) (x : Char) : Bool := low ≤ x.toNat && x.toNat ≤ high

def isEsc (x : Char) : Bool := x.toNat == 0x1b
def isBel (x : Char) : Bool := x.toNat == 0x07
def isC1Csi (x : Char) : Bool := x.toNat == 0x9b
def isC1Osc (x : Char) : Bool := x.toNat == 0x9d
def isC1St (x : Char) : Bool := x.toNat == 0x9c
/-- `C1_STRING_OPENERS`. -/
def isC1StringOpener (x : Char) : Bool := [0x90, 0x98, 0x9e, 0x9f].contains x.toNat

/-- `ST`. -/
def stringTerminator : Regex := .alt (sequence [.one isEsc, literal "\\"]) (.one isC1St)

/-- `CSI_BODY`. -/
def csiBody : Regex := sequence [
  star (.one fun x => isDigit x || ";:?<>".toList.contains x),
  star (.one (within 0x20 0x2f)), .one (within 0x40 0x7e)]

/-- `FE_FINAL`: neither an assignment operator nor what opens a longer sequence. -/
def isFeFinal (x : Char) : Bool :=
  isDigit x || ";<>?@\\YZ".toList.contains x || within 0x41 0x4f x || within 0x51 0x57 x ||
    within 0x60 0x7e x

/-- `FE_FINAL_AFTER_INTERMEDIATE`. -/
def isFeFinalAfterIntermediate (x : Char) : Bool :=
  isDigit x || ";<>?@[\\]^_".toList.contains x || within 0x41 0x5a x || within 0x60 0x7e x

/-- `FE_BODY`. -/
def feBody : Regex := .alt (.one isFeFinal)
  (.seq (plus (.one (within 0x20 0x2f))) (.one isFeFinalAfterIntermediate))

/-- `ANSI_PATTERN`. -/
def ansiPattern : Regex := choice [
  .seq (.one isEsc) (choice [
    .seq (literal "[") csiBody,
    sequence [literal "]", star (.one fun x => !isBel x), .alt (.one isBel) stringTerminator],
    sequence [oneOf "PX^_", star (.one fun x => !isEsc x), stringTerminator],
    feBody]),
  .seq (.one isC1Csi) csiBody,
  sequence [.one isC1Osc, star (.one fun x => !isBel x && !isC1St x),
    .alt (.one isBel) stringTerminator],
  sequence [.one isC1StringOpener, star (.one fun x => !isEsc x && !isC1St x), stringTerminator]]

/-- `DANGLING_ESCAPE_PATTERN`. -/
def danglingEscapePattern : Regex :=
  .one fun x => isEsc x || isC1Csi x || isC1Osc x || isC1StringOpener x

/-! ## Classes of characters -/

/-- `ZERO_WIDTH_PATTERN`. -/
def zeroWidthPattern (classes : CharClasses) : Regex :=
  .one fun x => classes.format x || x.toNat == 0x2028 || x.toNat == 0x2029

/-- `CONTROL_PATTERN`. -/
def controlPattern : Regex := .one fun x => within 0 0x1f x || within 0x7f 0x9f x

/-- `MARKDOWN_PATTERN`. -/
def markdownPattern : Regex := plus (oneOf "*_`#~")

/-- `/\s{2,}/g`. -/
def spaceRun : Regex := .rep true 2 none space

/-- `SECRET_SCREEN_PATTERNS`. -/
def secretScreenPatterns : List Regex :=
  let token := fun x => isWord x || x == '-'
  let four := Regex.rep true 4 (some 4) (.one isDigit)
  [sequence [wordBoundary, literal "sk-", .rep true 8 none (.one token), wordBoundary],
   sequence [wordBoundary, literal "g", choice [literal "sk", literal "ha"], literal "_",
     .rep true 8 none (.one token), wordBoundary],
   sequence [wordBoundary, literal "xox", oneOf "baprs", literal "-",
     .rep true 8 none (.one token), wordBoundary],
   sequence [wordBoundary, literal "eyJ", .rep true 20 none (.one token), wordBoundary],
   sequence [choice [
       sequence [literalI "api", star (.one fun x => isSpace x || x == '_' || x == '-'),
         literalI "key"],
       literalI "token", literalI "secret", literalI "password", literalI "passwd",
       literalI "auth", literalI "bearer"],
     spaces, oneOf ":=", spaces, plus (.one fun x => !isSpace x)],
   sequence [wordBoundary, four, optional space, four, optional space, four, optional space,
     four, wordBoundary],
   sequence [wordBoundary, literal "BEGIN ", optional (literal "RSA "), literal "PRIVATE KEY",
     wordBoundary]]

/-- Whether the secret screen refuses the text. -/
def screened (text : String) : Bool := secretScreenPatterns.any (·.test text)

/-- The draft with every surface that the strip removes deleted. -/
def glue (classes : CharClasses) (raw : String) : String :=
  markdownPattern.replaceAll "" (controlPattern.replaceAll "" ((zeroWidthPattern classes).replaceAll
    "" (ansiPattern.replaceAll "" raw)))

/-! ## Cutting -/

/-- `slice(0, end)`. -/
def sliceTo {α : Type} (stop : Int) (items : List α) : List α :=
  items.take (if stop < 0 then (items.length + stop).toNat else stop.toNat)

def trimEndList (text : List Char) : List Char := (text.reverse.dropWhile isSpace).reverse

/-- At most so many code points; what is cut off leaves an ellipsis. -/
def clamp (value : String) (maxLength : Int) : String :=
  let points := value.toList
  if points.length ≤ maxLength then value
  else String.ofList (trimEndList (sliceTo (maxLength - 1) points) ++ [Char.ofNat 0x2026])

/-! ## Titles and names -/

/-- A title, and whether the draft was refused. -/
structure SanitizedTitle where
  value : String
  fellBack : Bool
  deriving DecidableEq

def fallbackTitle : SanitizedTitle := ⟨sessionFallbackName, true⟩

def sanitizeTitle (classes : CharClasses) (raw : Option String) (maxLength : Int) :
    SanitizedTitle :=
  match raw with
  | none => fallbackTitle
  | some raw =>
      if trim raw = "" then fallbackTitle
      else if screened raw then fallbackTitle
      else
        let withoutSequences := ansiPattern.replaceAll " " raw
        if danglingEscapePattern.test withoutSequences then fallbackTitle
        else if screened (glue classes raw) then fallbackTitle
        else
          let stripped := trim (spaceRun.replaceAll " " (controlPattern.replaceAll " "
            (markdownPattern.replaceAll " " ((zeroWidthPattern classes).replaceAll ""
              withoutSequences))))
          if stripped = "" then fallbackTitle
          else if screened stripped then fallbackTitle
          else ⟨clamp stripped maxLength, false⟩

/-- A name, or the message of the `RangeError`. -/
def createManualSessionName (classes : CharClasses) (raw : String) : Except String String :=
  if screened raw then .ok sessionFallbackName
  else
    let withoutSequences := ansiPattern.replaceAll " " raw
    if danglingEscapePattern.test withoutSequences then .ok sessionFallbackName
    else if screened (glue classes raw) then .ok sessionFallbackName
    else
      let invisible := Regex.one fun x => !classes.visible x
      let value := trim (spaceRun.replaceAll " " (invisible.replaceAll " " withoutSequences))
      if value = "" then .error "a manual name must contain at least one visible character"
      else if screened value then .ok sessionFallbackName
      else if screened (spaceRun.replaceAll " " (markdownPattern.replaceAll " " value)) then
        .ok sessionFallbackName
      else .ok (clamp value manualNameMaxLength)

/-! ## Names are not empty -/

theorem clamp_ne_empty {value : String} (ne : value ≠ "") (maxLength : Int) :
    clamp value maxLength ≠ "" := by
  unfold clamp
  dsimp only
  split
  · exact ne
  · intro h
    simpa using congrArg String.toList h

theorem sanitizeTitle_ne_empty (classes : CharClasses) (raw : Option String) (maxLength : Int) :
    (sanitizeTitle classes raw maxLength).value ≠ "" := by
  have fallback : fallbackTitle.value ≠ "" := by decide
  cases raw with
  | none => exact fallback
  | some raw =>
      simp only [sanitizeTitle]
      split
      · exact fallback
      · split
        · exact fallback
        · split
          · exact fallback
          · split
            · exact fallback
            · split
              · exact fallback
              · rename_i stripped
                split
                · exact fallback
                · exact clamp_ne_empty stripped maxLength

theorem createManualSessionName_ne_empty {classes : CharClasses} {raw name : String}
    (h : createManualSessionName classes raw = .ok name) : name ≠ "" := by
  have fallback {name : String} (h : Except.ok (ε := String) sessionFallbackName = .ok name) :
      name ≠ "" := by
    cases h
    decide
  simp only [createManualSessionName] at h
  split at h
  · exact fallback h
  · split at h
    · exact fallback h
    · split at h
      · exact fallback h
      · split at h
        · cases h
        · rename_i visible
          split at h
          · exact fallback h
          · split at h
            · exact fallback h
            · rw [← Except.ok.inj h]
              exact clamp_ne_empty visible _

end AdCoder.SessionManager
