import AdCoder.Foundation.Effects
import AdCoder.Foundation.Occurrences
import AdCoder.Foundation.Runs
import AdCoder.Web.MappedForms

/-!
# Fetching a page

A page is fetched over at most `maxRedirects` redirects. Its host name is looked
up before each request, twice more for a stable answer, and once where the
request is pinned to the address found; the answers may differ. The connections
made are recorded.
-/

namespace AdCoder.Web

open Foundation

structure Url where
  href : String
  protocol : String
  username : String
  password : String
  hostname : String

/-- One answer of a lookup. -/
structure LookupAddress where
  address : String
  family : Nat

/-- The bytes of a response as they come; the last read may fail. -/
structure ResponseBody where
  chunks : List (List UInt8)
  complete : Bool

structure WebResponse where
  status : Nat
  location : Option String
  contentType : Option String
  body : Option ResponseBody

/-- What the transport hands over for a request: the address of its peer and the response. -/
structure Exchange where
  peer : Option String
  response : WebResponse

inductive WebError where
  | invalidUrl
  | unsafeUrl
  | privateNetworkDenied
  | redirectFailed
  | http (status : Nat)
  | unsupportedContentType
  | emptyResponse
  | responseTooLarge
  | timeout
  | host (message : String)
  deriving DecidableEq

structure WebToolConfig where
  allowPrivateNetwork : Bool
  maxRedirects : Nat
  maxResponseBytes : Nat

structure Page where
  url : String
  contentType : String
  body : String

/-- A connection, with the host name of the request it was made for. -/
structure Connection where
  hostname : String
  address : String

/-- The lookups and requests made so far, and the connections. -/
structure Wire where
  lookups : Nat
  requests : Nat
  connections : List Connection

def Wire.start : Wire := ⟨0, 0, []⟩

/-- The host: `new URL`, with a base or without; the answer of each lookup and the outcome of each
request in turn; whether the timer of a round had fired when the round failed; and the decoder. -/
structure WebHost where
  parse : String → Option Url
  resolve : String → Url → Option Url
  lookup : Nat → String → Except String (List LookupAddress)
  request : Nat → Except String Exchange
  timedOut : Nat → Bool
  decode : List UInt8 → String

abbrev Fetching (α : Type) := Effect Wire WebError α

section Fetch

variable (host : WebHost) (config : WebToolConfig)

def lookup (hostname : String) : Fetching (List LookupAddress) := Effect.act fun wire =>
  ((host.lookup wire.lookups hostname).mapError .host, { wire with lookups := wire.lookups + 1 })

/-- The addresses of a host: itself where it is one. -/
def addressesOf (hostname : String) : Fetching (List LookupAddress) :=
  if isIP hostname ≠ 0 then pure [⟨hostname, isIP hostname⟩] else lookup host hostname

def isPrivateEntry (entry : LookupAddress) : Bool := isPrivateAddress entry.address

def newUrl (raw : String) (error : WebError) : Fetching Url :=
  match host.parse raw with
  | some url => pure url
  | none => throw error

def assertPublicUrl (raw : String) : Fetching Url := do
  let url ← newUrl host raw .invalidUrl
  if (url.protocol ≠ "http:" ∧ url.protocol ≠ "https:") ∨ url.username ≠ "" ∨ url.password ≠ "" then
    throw .unsafeUrl
  else if config.allowPrivateNetwork then
    return url
  else if url.hostname = "localhost" then
    throw .privateNetworkDenied
  else do
    let addresses ← addressesOf host url.hostname
    if addresses.isEmpty || addresses.any isPrivateEntry then throw .privateNetworkDenied
    else return url

/-- The addresses of an answer in lower case and in order. -/
def normalizeEntries (entries : List LookupAddress) : List String :=
  sortText (entries.map fun entry => String.ofList (lowerCase entry.address))

def assertStablePublicResolution (url : Url) : Fetching Unit :=
  if config.allowPrivateNetwork ∨ isIP url.hostname ≠ 0 then pure ()
  else do
    let first ← lookup host url.hostname
    let second ← lookup host url.hostname
    let a := normalizeEntries first
    let b := normalizeEntries second
    if a.isEmpty || b.isEmpty || a.any isPrivateAddress || b.any isPrivateAddress || a != b then
      throw .privateNetworkDenied
    else pure ()

/-- The host name that a request is made for: an IPv6 address without its brackets. -/
def bareHost (hostname : String) : String :=
  match hostname.toList with
  | '[' :: rest => String.ofList rest.dropLast
  | _ => hostname

/-- Where the transport connects to: an address stands for itself, and only a name is looked up. -/
def connectsTo (hostname : String) (selected : LookupAddress) : String :=
  if isIP (bareHost hostname) ≠ 0 then bareHost hostname else selected.address

/-- `transport.request`: the connection that is made, and its outcome. -/
def request (url : Url) (selected : LookupAddress) : Fetching Exchange := Effect.act fun wire =>
  ((host.request wire.requests).mapError .host, { wire with
    requests := wire.requests + 1
    connections := wire.connections ++ [⟨url.hostname, connectsTo url.hostname selected⟩] })

/-- `replace(/^::ffff:/, "")`. -/
def withoutPrefix (address : String) : String :=
  if mappedPrefix.isPrefixOf address.toList then String.ofList (address.toList.drop 7) else address

/-- Whether a peer is the selected address, and public where that is asked for. -/
def peerAccepted (peer : Option String) (selected : LookupAddress) : Bool :=
  peer.any fun peer => (config.allowPrivateNetwork || !isPrivateAddress peer) &&
    withoutPrefix peer == withoutPrefix selected.address

/-- The fetch that `createPinnedFetch` makes. -/
def pinnedFetch (input : Url) : Fetching WebResponse := do
  let url ← newUrl host input.href (.host "Invalid URL")
  let addresses ← addressesOf host url.hostname
  match addresses.find? fun entry => config.allowPrivateNetwork || !isPrivateEntry entry with
  | none => throw .privateNetworkDenied
  | some selected =>
      if !config.allowPrivateNetwork && addresses.any isPrivateEntry then
        throw .privateNetworkDenied
      else do
        let exchange ← request host url selected
        if peerAccepted config exchange.peer selected then return exchange.response
        else throw .privateNetworkDenied

/-- The media types that are read, in any letter case. -/
def readable (contentType : String) : Bool :=
  ["text/html", "text/plain", "application/xhtml+xml"].any fun media =>
    includes media.toList (lowerCase contentType)

/-- The chunks joined, while they stay within the limit. -/
def readChunks (limit : Nat) : List UInt8 → List (List UInt8) → Except WebError (List UInt8)
  | joined, [] => .ok joined
  | joined, value :: rest =>
      if (joined ++ value).length > limit then .error .responseTooLarge
      else readChunks limit (joined ++ value) rest

def readBody (body : ResponseBody) : Except WebError (List UInt8) := do
  let joined ← readChunks config.maxResponseBytes [] body.chunks
  if body.complete then return joined else throw (.host "read failed")

def readPage (url : Url) (response : WebResponse) : Except WebError Page := do
  let contentType := response.contentType.getD ""
  require (200 ≤ response.status ∧ response.status < 300) (.http response.status)
  require (readable contentType) .unsupportedContentType
  match response.body with
  | none => throw .emptyResponse
  | some body => return ⟨url.href, contentType, host.decode (← readBody config body)⟩

/-- An error of a round whose timer has fired is a timeout. -/
def timed {α : Type} (round : Nat) (x : Fetching α) : Fetching α :=
  tryCatch x fun error => throw (if host.timedOut round then .timeout else error)

def isRedirect (response : WebResponse) : Bool := 300 ≤ response.status && response.status < 400

/-- One round: the checks at the transport boundary and the request. -/
def fetchRound (url : Url) : Fetching WebResponse := do
  let reboundCheck ← assertPublicUrl host config url.href
  assertStablePublicResolution host config reboundCheck
  pinnedFetch host config reboundCheck

def followLocation (url : Url) (location : String) : Fetching Url :=
  match host.resolve location url with
  | none => throw (.host "Invalid URL")
  | some next => assertPublicUrl host config next.href

/-- A round of the loop; `next` goes on with the URL redirected to, and is missing in the last. -/
def redirectRound (round : Nat) (next : Option (Url → Fetching Page)) (url : Url) :
    Fetching Page := do
  let response ← timed host round (fetchRound host config url)
  if isRedirect response then
    match response.location, next with
    | some location, some next => followLocation host config url location >>= next
    | _, _ => throw .redirectFailed
  else timed host round (Effect.act fun wire => (readPage host config url response, wire))

/-- The rounds of the loop, by how many may follow. -/
def fetchFrom : Nat → Url → Fetching Page
  | 0 => redirectRound host config config.maxRedirects none
  | left + 1 => redirectRound host config (config.maxRedirects - (left + 1)) (some (fetchFrom left))

def boundedFetch (rawUrl : String) : Fetching Page := do
  let url ← assertPublicUrl host config rawUrl
  fetchFrom host config config.maxRedirects url

end Fetch

/-! ## Connections -/

/-- A host name that is a private address in brackets. -/
def PrivateLiteral (hostname : String) : Prop :=
  (∃ rest, hostname.toList = '[' :: rest) ∧ isIP (bareHost hostname) ≠ 0 ∧
    isPrivateAddress (bareHost hostname) = true

/-- The connection goes to a private address only where the host name is one in brackets. -/
def Connection.Checked (connection : Connection) : Prop :=
  isPrivateAddress connection.address = true ↔ PrivateLiteral connection.hostname

def Wire.Checked (wire : Wire) : Prop := ∀ connection ∈ wire.connections, connection.Checked

open Effect

section Checked

variable {host : WebHost} {config : WebToolConfig}

theorem lookup_checked (hostname : String) : Preserves Wire.Checked (lookup host hostname) :=
  fun _ checked => checked

theorem addressesOf_checked (hostname : String) :
    Preserves Wire.Checked (addressesOf host hostname) :=
  .branch (fun _ => .returns _) fun _ => lookup_checked hostname

theorem newUrl_checked (raw : String) (error : WebError) :
    Preserves Wire.Checked (newUrl host raw error) := by
  rw [newUrl]
  cases host.parse raw with
  | some url => exact .returns url
  | none => exact .throws error

theorem assertPublicUrl_checked (raw : String) :
    Preserves Wire.Checked (assertPublicUrl host config raw) := by
  refine (newUrl_checked raw _).andThen fun url => ?_
  refine .branch (fun _ => .throws _) fun _ => .branch (fun _ => .returns _) fun _ => ?_
  refine .branch (fun _ => .throws _) fun _ => ?_
  refine (addressesOf_checked url.hostname).andThen fun addresses => ?_
  exact .branch (fun _ => .throws _) fun _ => .returns _

theorem assertStable_checked (url : Url) :
    Preserves Wire.Checked (assertStablePublicResolution host config url) := by
  refine .branch (fun _ => .returns _) fun _ => ?_
  refine (lookup_checked url.hostname).andThen fun first => ?_
  refine (lookup_checked url.hostname).andThen fun second => ?_
  exact .branch (fun _ => .throws _) fun _ => .returns _

/-- The addresses of a host that is one are itself. -/
theorem addressesOf_literal {hostname : String} (literal : isIP hostname ≠ 0) {wire : Wire}
    {addresses : List LookupAddress}
    (h : ((addressesOf host hostname).runOn wire).1 = .ok addresses) :
    addresses = [⟨hostname, isIP hostname⟩] := by
  rw [addressesOf, if_pos literal] at h
  exact (Except.ok.inj h).symm

/-- Where no address of the host is private, the connection is as it should be. -/
theorem connection_checked {hostname : String} {selected : LookupAddress}
    (publicOne : isPrivateAddress selected.address = false)
    (literal : isIP hostname ≠ 0 → isPrivateAddress hostname = false) :
    (Connection.mk hostname (connectsTo hostname selected)).Checked := by
  rw [Connection.Checked]
  by_cases bare : isIP (bareHost hostname) ≠ 0
  · have address : connectsTo hostname selected = bareHost hostname := if_pos bare
    rw [address]
    constructor
    · intro isPrivate
      refine ⟨?_, bare, isPrivate⟩
      by_contra noBracket
      have same : bareHost hostname = hostname := by
        unfold bareHost
        split
        · next rest eq => exact absurd ⟨rest, eq⟩ noBracket
        · rfl
      rw [same] at bare isPrivate
      rw [literal bare] at isPrivate
      cases isPrivate
    · exact fun isLiteral => isLiteral.2.2
  · have address : connectsTo hostname selected = selected.address := if_neg bare
    rw [address, publicOne]
    exact iff_of_false Bool.false_ne_true fun isLiteral => bare isLiteral.2.1

theorem pinnedFetch_checked (hprivate : config.allowPrivateNetwork = false) (input : Url) :
    Preserves Wire.Checked (pinnedFetch host config input) := by
  refine (newUrl_checked input.href _).andThen fun url => ?_
  refine (addressesOf_checked url.hostname).bind fun addresses wire checked answered => ?_
  have checked : ((addressesOf host url.hostname).runOn wire).2.Checked :=
    addressesOf_checked url.hostname wire checked
  revert checked
  generalize ((addressesOf host url.hostname).runOn wire).2 = asked
  intro checked
  split
  · exact checked
  · next selected found =>
      split_ifs with some
      · exact checked
      · have none : addresses.any isPrivateEntry = false := by simpa [hprivate] using some
        have publicOnes : ∀ entry ∈ addresses, isPrivateAddress entry.address = false := by
          intro entry member
          simpa [isPrivateEntry] using List.any_eq_false.mp none entry member
        refine Preserves.andThen (x := request host url selected) ?_ ?_ asked checked
        · intro before checkedBefore connection member
          rcases List.mem_append.mp member with member | member
          · exact checkedBefore connection member
          · obtain rfl := List.mem_singleton.mp member
            refine connection_checked (publicOnes selected (List.mem_of_find?_eq_some found)) ?_
            intro literal
            obtain rfl := addressesOf_literal literal answered
            exact publicOnes _ List.mem_cons_self
        · exact fun exchange => .branch (fun _ => .returns _) fun _ => .throws _

theorem timed_checked {α : Type} (round : Nat) {x : Fetching α} (h : Preserves Wire.Checked x) :
    Preserves Wire.Checked (timed host round x) :=
  h.catches fun _ => .throws _

theorem fetchRound_checked (hprivate : config.allowPrivateNetwork = false) (url : Url) :
    Preserves Wire.Checked (fetchRound host config url) :=
  (assertPublicUrl_checked url.href).andThen fun rebound =>
    (assertStable_checked rebound).andThen fun _ => pinnedFetch_checked hprivate rebound

theorem followLocation_checked (url : Url) (location : String) :
    Preserves Wire.Checked (followLocation host config url location) := by
  rw [followLocation]
  cases host.resolve location url with
  | none => exact .throws _
  | some next => exact assertPublicUrl_checked next.href

theorem redirectRound_checked (hprivate : config.allowPrivateNetwork = false) (round : Nat)
    {next : Option (Url → Fetching Page)}
    (later : ∀ fetch ∈ next, ∀ url, Preserves Wire.Checked (fetch url)) (url : Url) :
    Preserves Wire.Checked (redirectRound host config round next url) := by
  refine (timed_checked _ (fetchRound_checked hprivate url)).andThen fun response => ?_
  refine .branch (fun _ => ?_) fun _ => timed_checked _ fun _ checked => checked
  split
  · next location fetch _ => exact (followLocation_checked url location).andThen (later fetch rfl)
  · exact .throws _

/-- One round after another, each connection is checked. -/
theorem fetchFrom_checked (hprivate : config.allowPrivateNetwork = false) (left : Nat) (url : Url) :
    Preserves Wire.Checked (fetchFrom host config left url) := by
  induction left generalizing url with
  | zero =>
      refine redirectRound_checked hprivate _ ?_ url
      rintro fetch ⟨⟩
  | succ left ih =>
      refine redirectRound_checked hprivate _ ?_ url
      rintro fetch ⟨⟩
      exact ih

theorem boundedFetch_checked (hprivate : config.allowPrivateNetwork = false) (rawUrl : String) :
    Preserves Wire.Checked (boundedFetch host config rawUrl) :=
  (assertPublicUrl_checked rawUrl).andThen (fetchFrom_checked hprivate config.maxRedirects)

end Checked

/-- A fetch connects to no private address exactly if no request is for a private address in
brackets, and the check holds of every text of a reserved address that it recognises, and of no
other. -/
theorem web_tools_public_iff (config : WebToolConfig)
    (hprivate : config.allowPrivateNetwork = false) (host : WebHost) (rawUrl : String) :
    ((∀ connection ∈ ((boundedFetch host config rawUrl).runOn .start).2.connections,
        isPrivateAddress connection.address = false) ↔
      ∀ connection ∈ ((boundedFetch host config rawUrl).runOn .start).2.connections,
        ¬ PrivateLiteral connection.hostname) ∧
    ∀ address number, numeric address = some number →
      ((number.Reserved → isPrivateAddress address = true) ↔
        (number.Reserved → Recognised address number)) := by
  have checked : ((boundedFetch host config rawUrl).runOn .start).2.Checked :=
    boundedFetch_checked hprivate rawUrl .start (by simp [Wire.Checked, Wire.start])
  constructor
  · refine forall₂_congr fun connection member => ?_
    have same : isPrivateAddress connection.address = true ↔ PrivateLiteral connection.hostname :=
      checked connection member
    rw [← Bool.not_eq_true, same]
  · intro address number read
    exact forall_congr' fun reserved => isPrivateAddress_iff read reserved

def closedConfig : WebToolConfig := ⟨false, 5, 1000⟩

/-- A host where every name has one address and a page of two bytes. -/
def onePageHost (hostname answer : String) : WebHost where
  parse raw := some ⟨raw, "http:", "", "", hostname⟩
  resolve _ _ := none
  lookup _ _ := .ok [⟨answer, 4⟩]
  request _ := .ok ⟨some answer, ⟨200, none, some "text/html", some ⟨[[104, 105]], true⟩⟩⟩
  timedOut _ := false
  decode bytes := String.ofList (bytes.map fun byte => Char.ofNat byte.toNat)

theorem web_tools_public_iff_named :
    let wire := ((boundedFetch (onePageHost "host" "8.8.8.8") closedConfig "http://host/").runOn
      .start).2
    wire.connections.length = 1 ∧
      (∀ connection ∈ wire.connections, isPrivateAddress connection.address = false) ∧
      isPrivateAddress "::ffff:127.0.0.1" = true := by
  have one : ((boundedFetch (onePageHost "host" "8.8.8.8") closedConfig "http://host/").runOn
      .start).2.connections.map (·.hostname.toList) = ["host".toList] := by
    decide +kernel
  have read : numeric "::ffff:127.0.0.1" = some (.v6 [0, 0, 0, 0, 0, 0xffff, 0x7f00, 1]) := by
    decide +kernel
  obtain ⟨connects, recognises⟩ :=
    web_tools_public_iff closedConfig rfl (onePageHost "host" "8.8.8.8") "http://host/"
  refine ⟨by simpa using congrArg List.length one, connects.mpr ?_, ?_⟩
  · rintro connection member ⟨⟨rest, bracket⟩, -⟩
    have name := List.mem_map_of_mem (f := fun c : Connection => c.hostname.toList) member
    rw [one, List.mem_singleton, bracket] at name
    cases name
  · refine (recognises _ _ read).mpr ?_ ?_
    · rintro -
      refine .inr (.inr (.inr ⟨"127.0.0.1".toList, by decide +kernel, ?_⟩))
      rintro ⟨octets, zone, low, n, -, split, -⟩
      have one : ("127.0.0.1".toList.splitOn ':').length = 1 := by decide +kernel
      rw [split] at one
      cases one
    · exact .inr (.inr (.inr ⟨0xffff, 0x7f00, 1, rfl, .inr rfl, .inr (.inl rfl)⟩))

/-- A private address in brackets is connected to if its lookup gives a public one, and a loopback
address that is written out is taken for public. -/
theorem web_tools_public_refuted :
    (((boundedFetch (onePageHost "[::1]" "8.8.8.8") closedConfig "http://[::1]/").runOn
        .start).2.connections.any fun connection => isPrivateAddress connection.address) = true ∧
      numeric "0:0:0:0:0:0:0:1" = some (.v6 [0, 0, 0, 0, 0, 0, 0, 1]) ∧
      (IpAddress.v6 [0, 0, 0, 0, 0, 0, 0, 1]).Reserved ∧
      isPrivateAddress "0:0:0:0:0:0:0:1" = false :=
  ⟨by decide +kernel, by decide +kernel, .inr (.inl rfl), by decide +kernel⟩

end AdCoder.Web
