import AdCoder.Registry.Types

/-!
# Declared headers

Static request headers: which names and values a config may declare, and the placeholders that
the resolver expands.
-/

namespace AdCoder.Registry

open Foundation

def invalidConfig (detail message : String) : RegistryError := ⟨.invalidConfig, detail, message⟩

/-- `FORBIDDEN_HEADER_NAMES`. -/
def forbiddenHeaderNames : List String := [
  "authorization", "proxy-authorization", "x-api-key", "cookie", "set-cookie",
  "anthropic-auth-token", "cf-aig-authorization", "host", "content-type", "content-length",
  "accept-encoding", "transfer-encoding", "user-agent", "anthropic-version"]

/-- `HEADER_PLACEHOLDERS`. -/
def headerPlaceholders : List String := ["session"]

/-- The characters of an HTTP field name. -/
def isTokenChar (x : Char) : Bool := Regex.isAlnum x || "!#$%&'*+-.^_\x60|~".toList.contains x

/-- `HEADER_NAME_PATTERN`. -/
def headerNamePattern : Regex :=
  .sequence [.atStart, .plus (.one isTokenChar), .atEnd]

def isPrintable (x : Char) : Bool := ' ' ≤ x && x ≤ '~'

/-- `/^[\x20-\x7e]*$/`. -/
def printablePattern : Regex := .sequence [.atStart, .star (.one isPrintable), .atEnd]

/-- The class `[^{}]`. -/
def noBrace (x : Char) : Bool := x != '{' && x != '}'

/-- The token of a placeholder at the start of a text: two opening braces, what is no brace, two
closing braces. -/
def placeholder? : List Char → Option (List Char)
  | '{' :: '{' :: rest =>
      if ['}', '}'] <+: rest.dropWhile noBrace then some (rest.takeWhile noBrace) else none
  | _ => none

/-- The first capture of each match of `HEADER_PLACEHOLDER_PATTERN`. The counter says how many
characters of the last match are still to be passed. -/
def placeholders : Nat → List Char → List String
  | _, [] => []
  | skip + 1, _ :: rest => placeholders skip rest
  | 0, x :: rest =>
      match placeholder? (x :: rest) with
      | some token => String.ofList token :: placeholders (token.length + 3) rest
      | none => placeholders 0 rest

/-- `toLowerCase` of a token. -/
def lowerCase (name : String) : String := String.ofList (name.toList.map Regex.lower)

def braced (token : String) : String := "\x7b\x7b" ++ token ++ "\x7d\x7d"

/-- One entry of a header map, after entries with the `seen` names. -/
def parseHeader (scope : String) (seen : List String) (name : String) (value : Json) :
    Except RegistryError (String × String) := do
  let invalid := invalidConfig (scope ++ ".headers." ++ name)
  require (headerNamePattern.test name)
    (invalid ("header name \"" ++ name ++ "\" is not a valid HTTP field name"))
  require (!forbiddenHeaderNames.contains (lowerCase name))
    (invalid ("header \"" ++ name ++ "\" is reserved; authentication belongs in " ++
      "provider.credential and transport headers are owned by the client"))
  require (!seen.contains (lowerCase name))
    (invalid ("header \"" ++ name ++ "\" is declared more than once, ignoring case"))
  match value with
  | .str text => do
      require (text != "") (invalid ("header \"" ++ name ++ "\" must have a non-empty string value"))
      require (printablePattern.test text)
        (invalid ("header \"" ++ name ++ "\" value must contain only printable ASCII characters"))
      (placeholders 0 text.toList).forM fun token => require (headerPlaceholders.contains token)
        (invalid ("header \"" ++ name ++ "\" uses unknown placeholder \"" ++ braced token ++
          "\"; supported: " ++ ", ".intercalate (headerPlaceholders.map braced)))
      return (name, text)
  | _ => throw (invalid ("header \"" ++ name ++ "\" must have a non-empty string value"))

/-- `headers[name] = text`: the name `__proto__` is the accessor of the prototype, which ignores
a text, so that no entry is added. -/
def assigned (header : String × String) : Bool := header.1 != "__proto__"

def parseHeaderFields (scope : String) :
    List String → List (String × Json) → Except RegistryError HeaderMap
  | _, [] => .ok []
  | seen, (name, value) :: rest => do
      let header ← parseHeader scope seen name value
      let headers ← parseHeaderFields scope (seen ++ [lowerCase name]) rest
      return if assigned header then header :: headers else headers

def parseHeaders (scope : String) : Option Json → Except RegistryError (Option HeaderMap)
  | none => .ok none
  | some (.obj fields) => (parseHeaderFields scope [] fields).map some
  | some _ => .error (invalidConfig (scope ++ ".headers") "headers must be an object when present")

/-- The header texts that a config declares, before any is dropped. -/
def statedHeaders : Option Json → HeaderMap
  | some (.obj fields) => fields.filterMap fun field =>
      (Json.asString? (some field.2)).map fun text => (field.1, text)
  | _ => []

def headersJson (headers : HeaderMap) : Json := .obj (headers.map fun h => (h.1, .str h.2))

/-! ## What a header map promises -/

/-- A name and a value that a config may declare. -/
def validHeader (header : String × String) : Bool :=
  headerNamePattern.test header.1 && !forbiddenHeaderNames.contains (lowerCase header.1) &&
    header.2 != "" && printablePattern.test header.2 &&
    (placeholders 0 header.2.toList).all fun token => headerPlaceholders.contains token

structure ValidHeaders (headers : HeaderMap) : Prop where
  each : ∀ header ∈ headers, validHeader header = true ∧ assigned header = true
  distinct : (headers.map fun header => lowerCase header.1).Nodup

section HeaderLaws

variable {scope name : String} {seen : List String} {value : Json} {header : String × String}
  {headers : HeaderMap} {fields : List (String × Json)}

theorem forM_require {α ε : Type} {items : List α} {check : α → Bool} {error : α → ε} {u : PUnit} :
    (items.forM fun x => require (check x) (error x)) = .ok u ↔ items.all check = true := by
  rw [forM_eq_ok, List.all_eq_true]
  simp only [require_eq_ok]

theorem parseHeader_eq_ok : parseHeader scope seen name value = .ok header ↔
    header.1 = name ∧ value = .str header.2 ∧ validHeader header = true ∧ lowerCase name ∉ seen := by
  obtain ⟨kept, text⟩ := header
  cases value with
  | str other =>
      simp only [parseHeader, bind_eq_ok, require_eq_ok, forM_require, pure_eq_ok, validHeader,
        Bool.and_eq_true, Json.str.injEq, Prod.mk.injEq]
      constructor
      · rintro ⟨_, token, _, free, _, fresh, _, filled, _, printable, _, known, rfl, rfl⟩
        exact ⟨rfl, rfl, ⟨⟨⟨⟨token, free⟩, filled⟩, printable⟩, known⟩, by simpa using fresh⟩
      · rintro ⟨rfl, rfl, ⟨⟨⟨⟨token, free⟩, filled⟩, printable⟩, known⟩, fresh⟩
        exact ⟨(), token, (), free, (), by simpa using fresh, (), filled, (), printable, ⟨⟩, known,
          rfl, rfl⟩
  | _ => simp [parseHeader, throw, throwThe, MonadExceptOf.throw, bind_eq_ok]

theorem parseHeaderFields_eq_ok (h : parseHeaderFields scope seen fields = .ok headers) :
    ValidHeaders headers ∧ (∀ header ∈ headers, lowerCase header.1 ∉ seen) ∧
      headers = (statedHeaders (some (.obj fields))).filter assigned := by
  induction fields generalizing seen headers with
  | nil =>
      obtain rfl := Except.ok.inj h
      exact ⟨⟨by simp, by simp⟩, by simp, rfl⟩
  | cons field rest ih =>
      obtain ⟨name, value⟩ := field
      simp only [parseHeaderFields, bind_eq_ok, pure_eq_ok] at h
      obtain ⟨header, first, later, parsed, rfl⟩ := h
      obtain ⟨rfl, rfl, valid, fresh⟩ := parseHeader_eq_ok.mp first
      obtain ⟨each, outside, rfl⟩ := ih parsed
      have stated : statedHeaders (some (.obj ((header.1, .str header.2) :: rest))) =
          header :: statedHeaders (some (.obj rest)) := rfl
      rw [stated]
      simp only [List.mem_append, List.mem_singleton, not_or] at outside
      split_ifs with added
      · refine ⟨⟨?_, ?_⟩, ?_, ?_⟩
        · exact List.forall_mem_cons.mpr ⟨⟨valid, added⟩, each.each⟩
        · rw [List.map_cons, List.nodup_cons]
          refine ⟨fun mem => ?_, each.distinct⟩
          obtain ⟨other, among, same⟩ := List.mem_map.mp mem
          exact (outside other among).2 same
        · exact List.forall_mem_cons.mpr ⟨fresh, fun other among => (outside other among).1⟩
        · rw [List.filter_cons_of_pos added]
      · exact ⟨each, fun other among => (outside other among).1, by rw [List.filter_cons_of_neg added]⟩

theorem parseHeaderFields_again (valid : ValidHeaders headers)
    (outside : ∀ header ∈ headers, lowerCase header.1 ∉ seen) :
    parseHeaderFields scope seen (headers.map fun h => (h.1, .str h.2)) = .ok headers := by
  induction headers generalizing seen with
  | nil => rfl
  | cons header rest ih =>
      obtain ⟨each, distinct⟩ := valid
      rw [List.map_cons, List.nodup_cons] at distinct
      obtain ⟨⟨accepted, added⟩, later⟩ := List.forall_mem_cons.mp each
      obtain ⟨fresh, outside⟩ := List.forall_mem_cons.mp outside
      have fresh_later : ∀ other ∈ rest, lowerCase other.1 ∉ seen ++ [lowerCase header.1] := by
        intro other among
        simp only [List.mem_append, List.mem_singleton, not_or]
        refine ⟨outside other among, fun same => distinct.1 ?_⟩
        exact same ▸ List.mem_map_of_mem among
      simp only [List.map_cons, parseHeaderFields, bind_eq_ok, pure_eq_ok]
      refine ⟨header, parseHeader_eq_ok.mpr ⟨rfl, rfl, accepted, fresh⟩, rest,
        ih ⟨later, distinct.2⟩ fresh_later, ?_⟩
      rw [if_pos added]

theorem parseHeaders_eq_ok {result : Option HeaderMap} {value : Option Json}
    (h : parseHeaders scope value = .ok result) : (∀ headers ∈ result, ValidHeaders headers) ∧
      result.getD [] = (statedHeaders value).filter assigned := by
  unfold parseHeaders at h
  split at h
  · obtain rfl := Except.ok.inj h
    exact ⟨by simp, rfl⟩
  · obtain ⟨headers, parsed, rfl⟩ := map_eq_ok.mp h
    obtain ⟨valid, -, same⟩ := parseHeaderFields_eq_ok parsed
    refine ⟨?_, same⟩
    rintro _ ⟨⟩
    exact valid
  · cases h

/-- Declared headers are read again as they are. -/
theorem parseHeaders_again {result : Option HeaderMap}
    (valid : ∀ headers ∈ result, ValidHeaders headers) :
    parseHeaders scope (result.map headersJson) = .ok result := by
  cases result with
  | none => rfl
  | some headers =>
      rw [Option.map_some, headersJson, parseHeaders, map_eq_ok]
      exact ⟨headers, parseHeaderFields_again (valid headers rfl) (by simp), rfl⟩

end HeaderLaws

end AdCoder.Registry
