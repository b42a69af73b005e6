import AdCoder.Economics.CostAnomaly
import AdCoder.Foundation.JsonRoundTrip
import AdCoder.Foundation.Runs
import AdCoder.Foundation.Utf8Parts

/-!
# What a provider says it billed

A response body is read twice: one branch goes to the caller, the other is scanned line by
line for a billed amount. Nothing waits for the scan, and the call records what the scan
has found when it settles.
-/

namespace AdCoder.Economics

open Foundation Foundation.Regex Utf8

/-! ## Amounts -/

def isTrue : Option Json → Bool
  | some (.bool value) => value
  | _ => false

/-- A positive number, under the operator's own key that of the upstream. -/
def chargedUsdFromUsage : Option Json → Option Rat
  | some (.obj record) =>
      let upstream := match Json.lookup "cost_details" record with
        | some (.obj details) => Json.lookup "upstream_inference_cost" details
        | _ => none
      let charged := if isTrue (Json.lookup "is_byok" record) then upstream
        else Json.lookup "cost" record
      match charged with
      | some (.num (.finite usd)) => if 0 < usd then some usd else none
      | _ => none
  | _ => none

def usageOf : Json → Option Json
  | .obj fields => Json.lookup "usage" fields
  | _ => none

def charge (payload : Json) : Option Rat := chargedUsdFromUsage (usageOf payload)

/-! ## The scan -/

/-- `MAX_SCANNED_BODY_BYTES`. -/
def maxScannedBodyBytes : Nat := 1000000

section Scan

variable (format : NumberFormat)

def payloadText (line : List Char) : List Char :=
  if "data: ".toList.isPrefixOf line then trimList (line.drop 6) else trimList line

/-- The object on a line, after `data: ` or alone. -/
def payloadOn (line : List Char) : Option Json :=
  let payload := payloadText line
  if payload.isEmpty || payload == "[DONE]".toList || !(payload.head? == some '\x7b') then none
  else JsonText.parse format payload

def chargeOn (line : List Char) : Option Rat := (payloadOn format line).bind charge

/-- The last amount wins. -/
def consider (capture : Option Rat) (line : List Char) : Option Rat :=
  (chargeOn format line).or capture

/-- A `TextDecoder` in the middle of a stream. -/
structure Decoder where
  pending : List Nat
  started : Bool

namespace Decoder

/-- What a piece of text is given out as: a mark at the very start is dropped. -/
def emit (decoder : Decoder) (text : List Char) : List Char :=
  if decoder.started then text else dropMark text

def decode (decoder : Decoder) (chunk : List Nat) : List Char × Decoder :=
  let read := decodeOpen (decoder.pending ++ chunk)
  (decoder.emit read.1, ⟨read.2, decoder.started || !read.1.isEmpty⟩)

/-- The text that is still to come with the bytes. -/
def rest (decoder : Decoder) (bytes : List Nat) : List Char :=
  decoder.emit (decodeOpen (decoder.pending ++ bytes)).1

end Decoder

structure Scanner where
  decoder : Decoder
  buffered : List Char
  scannedBytes : Nat
  capture : Option Rat
  ended : Bool

namespace Scanner

def start : Scanner := ⟨⟨[], false⟩, [], 0, none, false⟩

/-- A chunk, unless the body has grown too large. -/
def read (scanner : Scanner) (value : List Nat) : Scanner :=
  let scannedBytes := scanner.scannedBytes + value.length
  if maxScannedBodyBytes < scannedBytes then
    { scanner with scannedBytes := scannedBytes, ended := true }
  else
    let (text, decoder) := scanner.decoder.decode value
    let lines := (scanner.buffered ++ text).splitOn '\n'
    { scanner with
      decoder := decoder
      buffered := lines.getLastD []
      scannedBytes := scannedBytes
      capture := lines.dropLast.foldl (consider format) scanner.capture }

/-- The end of the body: what is left is a line. -/
def finish (scanner : Scanner) : Scanner :=
  { scanner with capture := consider format scanner.capture scanner.buffered, ended := true }

end Scanner

end Scan

/-! ## One response -/

/-- What the call recorded when it settled: the amount that was added to the tally, and the
observation of the detector. -/
structure Settlement where
  tally : Option Rat
  observed : Option CostAnomalyObservation

/-- A response on its way, with the scan of its body and the call that it belongs to. -/
structure Response where
  source : List (List Nat)
  forScan : List (List Nat)
  forCaller : List (List Nat)
  scanner : Scanner
  received : List Nat
  settled : Option Settlement

inductive Proceeding where
  /-- The provider sends a chunk to both branches. -/
  | deliver
  | scan
  | read
  /-- The call settles, with the expected amount of the message's usage. -/
  | settle (usage : Option JsNumber)

namespace Response

def start (chunks : List (List Nat)) : Response := ⟨chunks, [], [], .start, [], none⟩

variable (format : NumberFormat) (provider model : String)

/-- `settle` of the tally and of the detector. -/
def settle (capture : Option Rat) (usage : Option JsNumber) : Settlement where
  tally := capture
  observed := match usage, capture with
    | some expectedUsd, some chargedUsd => some ⟨provider, model, .finite chargedUsd, expectedUsd⟩
    | _, _ => none

def advance (response : Response) : Proceeding → Option Response
  | .deliver =>
      match response.source with
      | [] => none
      | chunk :: source => some { response with
          source := source
          forScan := response.forScan ++ [chunk]
          forCaller := response.forCaller ++ [chunk] }
  | .scan =>
      if response.scanner.ended then none
      else match response.forScan with
        | chunk :: later => some { response with
            forScan := later
            scanner := response.scanner.read format chunk }
        | [] =>
            if response.source.isEmpty then
              some { response with scanner := response.scanner.finish format }
            else none
  | .read =>
      match response.forCaller with
      | [] => none
      | chunk :: later => some { response with
          forCaller := later
          received := response.received ++ chunk }
  | .settle usage =>
      if response.settled.isSome then none
      else some { response with
        settled := some (settle provider model response.scanner.capture usage) }

def step (response : Response) (proceeding : Proceeding) (next : Response) : Prop :=
  response.advance format provider model proceeding = some next

end Response

/-! ## What a body says -/

/-- The lines of a stream of events: they end with a line feed, a carriage return or both. -/
def eventLines : List Char → List (List Char)
  | [] => [[]]
  | '\r' :: '\n' :: rest => [] :: eventLines rest
  | x :: rest =>
      if x = '\r' ∨ x = '\n' then [] :: eventLines rest
      else (eventLines rest).modifyHead (x :: ·)

/-- The value of a data field, without the blank in front of it. -/
def dataField (line : List Char) : Option (List Char) :=
  if line = "data".toList then some []
  else if "data:".toList.isPrefixOf line then
    match line.drop 5 with
    | ' ' :: value => some value
    | value => some value
  else none

/-- The data of the events; that of one event stands on several lines. The end of the body
ends the last event. -/
def eventData : Option (List Char) → List (List Char) → List (List Char)
  | data, [] => data.toList
  | data, line :: rest =>
      if line.isEmpty then data.toList ++ eventData none rest
      else match dataField line, data with
        | some value, none => eventData (some value) rest
        | some value, some before => eventData (some (before ++ '\n' :: value)) rest
        | none, _ => eventData data rest

section Body

variable (format : NumberFormat) (body : List Nat)

/-- The payloads of a body: one document, or the data of its events. -/
def payloads : List Json :=
  let text := dropMark (lossy body)
  match JsonText.parse format text with
  | some document => [document]
  | none => (eventData none (eventLines text)).filterMap (JsonText.parse format)

def bearsUsage (payload : Json) : Bool :=
  match usageOf payload with
  | some (.obj _) => true
  | _ => false

/-- The last payload that bears a usage. -/
def lastUsage : Option Json := ((payloads format body).filter bearsUsage).getLast?

/-- The amount that the body reports. -/
def billed : Option Rat := (lastUsage format body).bind charge

/-- The lines that a scan of the whole body considers. -/
def bodyLines : List (List Char) := (dropMark (decodeOpen body).1).splitOn '\n'

/-- The last payload that bears a usage, if it bears an amount, stands alone on a line
behind which no line bears one; and else no line bears one. -/
def Legible : Prop :=
  match (lastUsage format body).filter fun payload => (charge payload).isSome with
  | some payload => ∃ before line after, bodyLines body = before ++ line :: after ∧
      payloadOn format line = some payload ∧ ∀ later ∈ after, chargeOn format later = none
  | none => ∀ line ∈ bodyLines body, chargeOn format line = none

end Body

namespace Response

variable (format : NumberFormat)

/-- The lines that the scan has not considered yet. -/
def left (response : Response) : List (List Char) :=
  if response.scanner.ended then []
  else (response.scanner.buffered ++ response.scanner.decoder.rest
    (response.forScan.flatten ++ response.source.flatten)).splitOn '\n'

/-- The caller reads what the provider sent. -/
def Transparent (body : List Nat) (response : Response) : Prop :=
  response.received ++ response.forCaller.flatten ++ response.source.flatten = body

/-- Tally and detector recorded the amount that the body reports. -/
def Recorded (body : List Nat) (response : Response) : Prop :=
  ∀ settlement, response.settled = some settlement →
    settlement.tally = billed format body ∧
      settlement.observed.map (·.chargedUsd) = (billed format body).map .finite

/-- The call settles with a usage, and when no line is left that bears an amount. -/
def Caught (response : Response) : Proceeding → Prop
  | .settle usage => usage.isSome = true ∧
      ∀ line ∈ response.left, chargeOn format line = none
  | _ => True

end Response

/-! ## The text of a stream -/

namespace Decoder

variable (decoder : Decoder)

/-- Once text was given out, no mark is dropped from what follows. -/
theorem emit_append (text more : List Char) (pending : List Nat) :
    decoder.emit (text ++ more) = decoder.emit text ++
      (Decoder.mk pending (decoder.started || !text.isEmpty)).emit more := by
  unfold emit
  by_cases started : decoder.started = true
  · simp [started]
  · cases text with
    | nil => simp [started, dropMark]
    | cons x text =>
        have dropped : dropMark (x :: text ++ more) = dropMark (x :: text) ++ more := by
          simp only [List.cons_append, dropMark]
          split_ifs <;> rfl
        simpa [started] using dropped

/-- What is decoded now, and then what is still to come, is all that is to come. -/
theorem rest_append (chunk more : List Nat) :
    decoder.rest (chunk ++ more) =
      (decoder.decode chunk).1 ++ (decoder.decode chunk).2.rest more := by
  rw [rest, ← List.append_assoc, decodeOpen_append]
  exact decoder.emit_append _ _ _

/-- The decoder keeps no complete character back. -/
def Open : Prop := (decodeOpen decoder.pending).1 = []

theorem open_decode (chunk : List Nat) : (decoder.decode chunk).2.Open := by
  have whole := decodeOpen_append (decoder.pending ++ chunk) []
  rw [List.append_nil, List.append_nil] at whole
  have text := congrArg Prod.fst whole
  exact List.self_eq_append_right.mp text

theorem rest_nil (kept : decoder.Open) : decoder.rest [] = [] := by
  rw [rest, List.append_nil, show (decodeOpen decoder.pending).1 = [] from kept, emit]
  split_ifs <;> rfl

end Decoder

/-! ## The last amount -/

section Lines

variable {format : NumberFormat}

theorem foldl_consider_of_none {lines : List (List Char)} {capture : Option Rat}
    (none : ∀ line ∈ lines, chargeOn format line = none) :
    lines.foldl (consider format) capture = capture := by
  induction lines generalizing capture with
  | nil => rfl
  | cons line lines ih =>
      obtain ⟨first, later⟩ := List.forall_mem_cons.mp none
      rw [List.foldl_cons, ih later, consider, first, Option.none_or]

/-- A legible body is scanned for the amount that it reports. -/
theorem scan_of_legible {body : List Nat} (legible : Legible format body) :
    (bodyLines body).foldl (consider format) none = billed format body := by
  unfold Legible at legible
  cases last : lastUsage format body with
  | none =>
      rw [last] at legible
      rw [foldl_consider_of_none legible, billed, last]
      rfl
  | some payload =>
      rw [last] at legible
      cases amount : charge payload with
      | none =>
          simp only [Option.filter_some, amount, Option.isSome_none, Bool.false_eq_true,
            if_false] at legible
          rw [foldl_consider_of_none legible, billed, last, Option.bind_some, amount]
      | some usd =>
          simp only [Option.filter_some, amount, Option.isSome_some, if_true] at legible
          obtain ⟨before, line, after, lines, alone, behind⟩ := legible
          have charged : chargeOn format line = some usd := by
            rw [chargeOn, alone, Option.bind_some, amount]
          rw [lines, List.foldl_append, List.foldl_cons, foldl_consider_of_none behind, consider,
            charged, billed, last, Option.bind_some, amount]
          rfl

end Lines

/-- A document that stands on one line is legible. -/
theorem legible_document {format : NumberFormat} {body : List Nat} {text : List Char}
    {document : Json} (decoded : decodeOpen body = (text, [])) (line : '\n' ∉ text)
    (head : text.head? = some '\x7b') (plain : trimList text = text)
    (parsed : JsonText.parse format text = some document) : Legible format body := by
  have unmarked : dropMark text = text := by
    cases text with
    | nil => rfl
    | cons x rest =>
        obtain rfl : x = '\x7b' := by simpa using head
        simp [dropMark]
  have whole : lossy body = text := by
    rw [lossy_of_decodeOpen (by rw [decoded]), decoded]
  have lines : bodyLines body = [text] := by
    rw [bodyLines, decoded, unmarked, List.splitOn_eq_singleton line]
  have unlabelled : payloadText text = text := by
    cases text with
    | nil => rfl
    | cons x rest =>
        obtain rfl : x = '\x7b' := by simpa using head
        rw [payloadText, if_neg (by simp [List.isPrefixOf]), plain]
  have alone : payloadOn format text = some document := by
    cases text with
    | nil => cases head
    | cons x rest =>
        obtain rfl : x = '\x7b' := by simpa using head
        simp only [payloadOn, unlabelled]
        rw [if_neg (by simp), parsed]
  have last : lastUsage format body = if bearsUsage document then some document else none := by
    simp only [lastUsage, payloads, whole, unmarked, parsed]
    cases bears : bearsUsage document <;> simp [bears]
  unfold Legible
  rw [last]
  cases bears : bearsUsage document with
  | false =>
      have free : charge document = none := by
        unfold bearsUsage at bears
        unfold charge
        split at bears
        · cases bears
        · next other =>
            unfold chargedUsdFromUsage
            split
            · next record usage => exact absurd usage (other record)
            · rfl
      simp [lines, chargeOn, alone, free]
  | true =>
      cases amount : charge document with
      | none =>
          simp only [if_true, Option.filter_some, amount, Option.isSome_none, if_false,
            Bool.false_eq_true]
          simp [lines, chargeOn, alone, amount]
      | some usd =>
          simp only [if_true, Option.filter_some, amount, Option.isSome_some]
          exact ⟨[], text, [], lines, alone, nofun⟩

/-! ## Runs -/

namespace Response

section Runs

variable {format : NumberFormat} {provider model : String} {body : List Nat}
  {response next : Response} {proceeding : Proceeding}

theorem transparent_start (chunks : List (List Nat)) :
    Transparent chunks.flatten (start chunks) := by
  simp [Transparent, start]

/-- No step changes what the caller reads in the end. -/
theorem transparent_step (h : step format provider model response proceeding next)
    (transparent : Transparent body response) : Transparent body next := by
  unfold step advance at h
  cases proceeding with
  | deliver =>
      cases source : response.source with
      | nil => simp [source] at h
      | cons chunk later =>
          simp only [source, Option.some.injEq] at h
          subst h
          rw [Transparent, source, List.flatten_cons] at transparent
          simpa [Transparent] using transparent
  | scan =>
      simp only at h
      cases queue : response.forScan with
      | nil =>
          simp only [queue] at h
          split_ifs at h
          obtain rfl := Option.some.inj h
          exact transparent
      | cons chunk later =>
          simp only [queue] at h
          split_ifs at h
          obtain rfl := Option.some.inj h
          exact transparent
  | read =>
      cases queue : response.forCaller with
      | nil => simp [queue] at h
      | cons chunk later =>
          simp only [queue, Option.some.injEq] at h
          subst h
          rw [Transparent, queue, List.flatten_cons] at transparent
          simpa [Transparent] using transparent
  | settle usage =>
      simp only at h
      split_ifs at h
      obtain rfl := Option.some.inj h
      exact transparent

/-- The lines of the body are those that were considered and those that are left, and the
capture is the last amount on the former. -/
structure Scanning (format : NumberFormat) (body : List Nat) (response : Response) : Prop where
  lines : ∃ before, bodyLines body = before ++ response.left ∧
    response.scanner.capture = before.foldl (consider format) none
  size : response.scanner.ended = true ∨ response.scanner.scannedBytes +
    (response.forScan.flatten ++ response.source.flatten).length = body.length
  clean : '\n' ∉ response.scanner.buffered
  kept : response.scanner.decoder.Open

theorem scanning_start (chunks : List (List Nat)) :
    Scanning format chunks.flatten (start chunks) := by
  refine ⟨⟨[], ?_, rfl⟩, .inr (by simp [start, Scanner.start]), by simp [start, Scanner.start], ?_⟩
  · simp [bodyLines, left, start, Scanner.start, Decoder.rest, Decoder.emit]
  · simp [start, Scanner.start, Decoder.Open]

/-- Reading a chunk moves its complete lines to those that were considered. -/
theorem scanning_read (small : body.length ≤ maxScannedBodyBytes) {chunk : List Nat}
    {later : List (List Nat)} (queue : response.forScan = chunk :: later)
    (running : response.scanner.ended = false) (scanning : Scanning format body response) :
    Scanning format body { response with
      forScan := later
      scanner := response.scanner.read format chunk } := by
  obtain ⟨before, lines, capture⟩ := scanning.lines
  have size := scanning.size.resolve_left (by simp [running])
  rw [queue, List.flatten_cons, List.append_assoc, List.length_append] at size
  have fits : ¬ maxScannedBodyBytes < response.scanner.scannedBytes + chunk.length := by omega
  have ahead : response.left = (response.scanner.buffered ++ ((response.scanner.decoder.decode
      chunk).1 ++ (response.scanner.decoder.decode chunk).2.rest (later.flatten ++
        response.source.flatten))).splitOn '\n' := by
    rw [left, running, if_neg Bool.false_ne_true, queue, List.flatten_cons, List.append_assoc,
      Decoder.rest_append]
  generalize hpieces : (response.scanner.buffered ++
    (response.scanner.decoder.decode chunk).1).splitOn '\n' = pieces
  obtain rfl | ⟨front, last, rfl⟩ := List.eq_nil_or_concat pieces
  · exact absurd hpieces (List.splitOn_ne_nil _ _)
  rw [List.concat_eq_append] at hpieces
  have unread := splitOn_append hpieces
    ((response.scanner.decoder.decode chunk).2.rest (later.flatten ++ response.source.flatten))
  rw [List.append_assoc, ← ahead] at unread
  have fresh : '\n' ∉ last := separator_notMem_splitOn (by rw [hpieces]; simp)
  have read : response.scanner.read format chunk = ⟨(response.scanner.decoder.decode chunk).2,
      last, response.scanner.scannedBytes + chunk.length,
      front.foldl (consider format) response.scanner.capture, false⟩ := by
    simp only [Scanner.read, if_neg fits, hpieces, List.dropLast_concat, running]
    simp
  refine ⟨⟨before ++ front, ?_, ?_⟩, .inr ?_, ?_, ?_⟩
  · rw [left, read, if_neg Bool.false_ne_true, lines, unread, List.append_assoc]
  · rw [read, List.foldl_append, ← capture]
  · rw [read]
    simp only
    omega
  · rw [read]
    exact fresh
  · rw [read]
    exact Decoder.open_decode _ _

/-- At the end of the body the last line is considered. -/
theorem scanning_finish (queue : response.forScan = []) (done : response.source = [])
    (running : response.scanner.ended = false) (scanning : Scanning format body response) :
    Scanning format body { response with scanner := response.scanner.finish format } := by
  obtain ⟨before, lines, capture⟩ := scanning.lines
  have last : response.left = [response.scanner.buffered] := by
    rw [left, running, if_neg Bool.false_ne_true, queue, done, List.flatten_nil,
      List.append_nil, Decoder.rest_nil _ scanning.kept, List.append_nil]
    exact List.splitOn_eq_singleton scanning.clean
  refine ⟨⟨before ++ [response.scanner.buffered], ?_, ?_⟩, .inl rfl, scanning.clean,
    scanning.kept⟩
  · rw [lines, last]
    simp [left, Scanner.finish]
  · rw [List.foldl_append, ← capture]
    rfl

theorem scanning_step (small : body.length ≤ maxScannedBodyBytes)
    (h : step format provider model response proceeding next)
    (scanning : Scanning format body response) : Scanning format body next := by
  unfold step advance at h
  cases proceeding with
  | deliver =>
      cases source : response.source with
      | nil => simp [source] at h
      | cons chunk later =>
          simp only [source, Option.some.injEq] at h
          subst h
          have bytes : (response.forScan ++ [chunk]).flatten ++ later.flatten =
              response.forScan.flatten ++ response.source.flatten := by
            simp [source]
          obtain ⟨lines, size, clean, kept⟩ := scanning
          refine ⟨?_, ?_, clean, kept⟩
          · simpa only [left, bytes] using lines
          · simpa only [bytes] using size
  | scan =>
      simp only at h
      cases queue : response.forScan with
      | nil =>
          simp only [queue] at h
          split_ifs at h with ended done
          obtain rfl := Option.some.inj h
          rw [← queue]
          exact scanning_finish queue (List.isEmpty_iff.mp done) (by simpa using ended) scanning
      | cons chunk later =>
          simp only [queue] at h
          split_ifs at h with ended
          obtain rfl := Option.some.inj h
          exact scanning_read small queue (by simpa using ended) scanning
  | read =>
      cases queue : response.forCaller with
      | nil => simp [queue] at h
      | cons chunk later =>
          simp only [queue, Option.some.injEq] at h
          subst h
          exact ⟨scanning.lines, scanning.size, scanning.clean, scanning.kept⟩
  | settle usage =>
      simp only at h
      split_ifs at h
      obtain rfl := Option.some.inj h
      exact ⟨scanning.lines, scanning.size, scanning.clean, scanning.kept⟩

/-- Only a settling call records anything. -/
theorem settled_step (h : step format provider model response proceeding next) :
    next.settled = response.settled ∨ ∃ usage, proceeding = .settle usage ∧
      next.settled = some (settle provider model response.scanner.capture usage) := by
  unfold step advance at h
  cases proceeding with
  | deliver =>
      simp only at h
      split at h
      · cases h
      · obtain rfl := Option.some.inj h
        exact .inl rfl
  | scan =>
      simp only at h
      cases queue : response.forScan with
      | nil =>
          simp only [queue] at h
          split_ifs at h
          obtain rfl := Option.some.inj h
          exact .inl rfl
      | cons chunk later =>
          simp only [queue] at h
          split_ifs at h
          obtain rfl := Option.some.inj h
          exact .inl rfl
  | read =>
      simp only at h
      split at h
      · cases h
      · obtain rfl := Option.some.inj h
        exact .inl rfl
  | settle usage =>
      simp only at h
      split_ifs at h
      obtain rfl := Option.some.inj h
      exact .inr ⟨usage, rfl, rfl⟩

/-- A call that settles when nothing is left records the amount of a legible body. -/
theorem recorded_step (legible : Legible format body)
    (h : Guarded (step format provider model) (Caught format) response proceeding next)
    (scanning : Scanning format body response) (recorded : Recorded format body response) :
    Recorded format body next := by
  obtain ⟨caught, h⟩ := h
  intro settlement settled
  obtain same | ⟨usage, rfl, new⟩ := settled_step h
  · exact recorded settlement (same ▸ settled)
  · obtain ⟨present, nothing⟩ := caught
    obtain ⟨expectedUsd, rfl⟩ := Option.isSome_iff_exists.mp present
    obtain ⟨before, lines, capture⟩ := scanning.lines
    have amount : response.scanner.capture = billed format body := by
      rw [← scan_of_legible legible, lines, List.foldl_append, foldl_consider_of_none nothing,
        capture]
    obtain rfl := Option.some.inj (new.symm.trans settled)
    rw [amount]
    refine ⟨rfl, ?_⟩
    cases billed format body <;> rfl

/-- The caller reads what was sent in every run, and tally and detector record what a
legible body reports in every run whose call settles with no amount left to be scanned. -/
theorem billed_amounts_recorded (format : NumberFormat) (provider model : String)
    (chunks : List (List Nat)) (small : chunks.flatten.length ≤ maxScannedBodyBytes) :
    (∀ proceedings response, Run (step format provider model) (start chunks) proceedings response →
      Transparent chunks.flatten response) ∧
    (Legible format chunks.flatten → ∀ proceedings response,
      Run (Guarded (step format provider model) (Caught format)) (start chunks) proceedings
        response → Recorded format chunks.flatten response) := by
  refine ⟨fun proceedings response run => ?_, fun legible proceedings response run => ?_⟩
  · exact run.invariant (fun transparent moved => transparent_step moved transparent)
      (transparent_start chunks)
  · have both := run.invariant (I := fun response => Scanning format chunks.flatten response ∧
        Recorded format chunks.flatten response)
      (fun held moved => ⟨scanning_step small moved.2 held.1,
        recorded_step legible moved held.1 held.2⟩)
      ⟨scanning_start chunks, nofun⟩
    exact both.2

end Runs

/-! ## A document of one charge -/

/-- `{"usage":{"cost":1}}`. -/
def chargedDocument : Json := .obj [("usage", .obj [("cost", .num 1)])]

def chargedText : List Char :=
  ['\x7b', '"', 'u', 's', 'a', 'g', 'e', '"', ':', '\x7b', '"', 'c', 'o', 's', 't', '"', ':', '1',
    '\x7d', '\x7d']

def chargedBody : List Nat := chargedText.map Char.toNat

theorem parse_chargedText :
    JsonText.parse decimalFormat chargedText = some chargedDocument := by
  have reads : JsonText.Reads decimalFormat 1 :=
    JsonText.reads_nat decimalFormat_decimal (by decide)
  have one : JsonText.valueText decimalFormat (.num 1) = ['1'] := by
    rw [JsonText.valueText_num reads]
    decide
  have usage : (Json.quote "usage").toList = ['"', 'u', 's', 'a', 'g', 'e', '"'] := by decide
  have cost : (Json.quote "cost").toList = ['"', 'c', 'o', 's', 't', '"'] := by decide
  have readable : JsonText.Readable decimalFormat chargedDocument := by
    simp only [chargedDocument, JsonText.Readable, JsonText.ReadableFields]
    exact ⟨by simp, ⟨by simp, reads, trivial⟩, trivial⟩
  have text : JsonText.valueText decimalFormat chargedDocument = chargedText := by
    simp [chargedDocument, JsonText.valueText_obj, JsonText.memberText, one, usage, cost,
      chargedText]
  rw [← text]
  exact JsonText.parse_stringify readable

theorem decodeOpen_chargedBody : decodeOpen chargedBody = (chargedText, []) := by
  refine decodeOpen_ascii fun x mem => ?_
  have ascii : (chargedText.all fun x => x.toNat < 0x80) = true := by decide
  simpa using List.all_eq_true.mp ascii x mem

theorem chargedBody_legible : Legible decimalFormat chargedBody :=
  legible_document decodeOpen_chargedBody (by decide) rfl (by decide) parse_chargedText

theorem billed_chargedBody : billed decimalFormat chargedBody = some 1 := by
  have whole : lossy chargedBody = chargedText := by
    rw [lossy_of_decodeOpen (by rw [decodeOpen_chargedBody]), decodeOpen_chargedBody]
  have unmarked : dropMark chargedText = chargedText := by decide
  simp only [billed, lastUsage, payloads, whole, unmarked, parse_chargedText]
  rfl

/-- The document on its way, with what was scanned of it and what the call recorded. -/
def underway (queued read : List (List Nat)) (scanner : Scanner)
    (settled : Option Settlement) : Response :=
  ⟨[], queued, if read.isEmpty then [chargedBody] else [], scanner, read.flatten, settled⟩

theorem flatten_chargedBody : [chargedBody].flatten = chargedBody := by simp

/-- The document is sent, scanned to its end and then settled. -/
theorem billed_amounts_recorded_chargedBody :
    [chargedBody].flatten.length ≤ maxScannedBodyBytes ∧
    Legible decimalFormat [chargedBody].flatten ∧
    ∃ response, Run (Guarded (step decimalFormat "openrouter" "m") (Caught decimalFormat))
        (start [chargedBody]) [.deliver, .scan, .scan, .settle (some 1)] response ∧
      Recorded decimalFormat [chargedBody].flatten response := by
  have small : [chargedBody].flatten.length ≤ maxScannedBodyBytes := by decide
  have legible : Legible decimalFormat [chargedBody].flatten := by
    rw [flatten_chargedBody]
    exact chargedBody_legible
  let scanned := Scanner.start.read decimalFormat chargedBody
  let ended := scanned.finish decimalFormat
  have deliver : Guarded (step decimalFormat "openrouter" "m") (Caught decimalFormat)
      (start [chargedBody]) .deliver (underway [chargedBody] [] .start none) := ⟨trivial, rfl⟩
  have scan : Guarded (step decimalFormat "openrouter" "m") (Caught decimalFormat)
      (underway [chargedBody] [] .start none) .scan (underway [] [] scanned none) :=
    ⟨trivial, rfl⟩
  have finish : Guarded (step decimalFormat "openrouter" "m") (Caught decimalFormat)
      (underway [] [] scanned none) .scan (underway [] [] ended none) := ⟨trivial, rfl⟩
  have settles : Guarded (step decimalFormat "openrouter" "m") (Caught decimalFormat)
      (underway [] [] ended none) (.settle (some 1)) (underway [] [] ended
        (some (settle "openrouter" "m" ended.capture (some 1)))) := ⟨⟨rfl, nofun⟩, rfl⟩
  have run := (((Run.single deliver).tail scan).tail finish).tail settles
  exact ⟨small, legible, _, run, (billed_amounts_recorded decimalFormat "openrouter" "m"
    [chargedBody] small).2 legible _ _ run⟩

/-- A call that settles before the document was scanned records nothing. -/
theorem billed_amounts_refuted :
    billed decimalFormat [chargedBody].flatten = some 1 ∧
    ∃ response, Run (step decimalFormat "openrouter" "m") (start [chargedBody])
        [.deliver, .read, .settle (some 1)] response ∧
      ¬ Recorded decimalFormat [chargedBody].flatten response := by
  rw [flatten_chargedBody]
  have deliver : step decimalFormat "openrouter" "m" (start [chargedBody]) .deliver
      (underway [chargedBody] [] .start none) := rfl
  have read : step decimalFormat "openrouter" "m" (underway [chargedBody] [] .start none) .read
      (underway [chargedBody] [chargedBody] .start none) := rfl
  have settles : step decimalFormat "openrouter" "m"
      (underway [chargedBody] [chargedBody] .start none) (.settle (some 1))
      (underway [chargedBody] [chargedBody] .start
        (some (settle "openrouter" "m" none (some 1)))) := rfl
  refine ⟨billed_chargedBody, _, ((Run.single deliver).tail read).tail settles,
    fun recorded => ?_⟩
  have tally := (recorded _ rfl).1
  rw [billed_chargedBody] at tally
  cases tally

end Response

end AdCoder.Economics
