import AdCoder.Foundation.JsonObjects
import AdCoder.Foundation.JsonPrefixes
import AdCoder.Ledger.LedgerReads

/-!
# Writing a ledger

The sink appends each record as one line of JSON. A process that stops during a
write leaves a part of the line behind, and the next process appends to it. In a
history in which nothing is appended to a part of a line, every line that was
written completely is read back.
-/

namespace AdCoder.Ledger

open Foundation Foundation.JsonText Foundation.Regex

/-! ## Records -/

structure UsageCost where
  input : JsNumber
  output : JsNumber
  cacheRead : JsNumber
  cacheWrite : JsNumber
  total : JsNumber

structure UsageAmounts where
  input : JsNumber
  output : JsNumber
  cacheRead : JsNumber
  cacheWrite : JsNumber
  cacheWrite1h : Option JsNumber
  reasoning : Option JsNumber
  totalTokens : JsNumber
  cost : UsageCost

/-- The calls of each tool; a tool is listed once. -/
structure ToolCalls where
  counts : List (String × JsNumber)
  distinct : (counts.map (·.1)).Nodup

structure RequestBytes where
  systemPrompt : JsNumber
  prompt : JsNumber
  toolDefinitions : JsNumber
  total : JsNumber

structure Refusal where
  code : String
  reason : String
  message : String

structure ProviderError where
  status : Option JsNumber
  code : Option String

/-- `LedgerRecord` of `types`. -/
structure LedgerRecord where
  ts : JsNumber
  runId : String
  lane : String
  role : String
  step : String
  provider : String
  model : String
  stopReason : String
  status : Option JsNumber
  usage : UsageAmounts
  toolCalls : Option ToolCalls
  requestBytes : Option RequestBytes
  refusal : Option Refusal
  providerError : Option ProviderError
  providerDiagnostic : Option String

def UsageCost.fields (cost : UsageCost) : List (String × Json) :=
  [("input", .num cost.input), ("output", .num cost.output), ("cacheRead", .num cost.cacheRead),
    ("cacheWrite", .num cost.cacheWrite), ("total", .num cost.total)]

def UsageAmounts.fields (usage : UsageAmounts) : List (String × Json) :=
  Json.fields [("input", some (.num usage.input)), ("output", some (.num usage.output)),
    ("cacheRead", some (.num usage.cacheRead)), ("cacheWrite", some (.num usage.cacheWrite)),
    ("cacheWrite1h", usage.cacheWrite1h.map .num), ("reasoning", usage.reasoning.map .num),
    ("totalTokens", some (.num usage.totalTokens)), ("cost", some (.obj usage.cost.fields))]

def ToolCalls.fields (calls : ToolCalls) : List (String × Json) :=
  calls.counts.map fun count => (count.1, .num count.2)

def RequestBytes.fields (bytes : RequestBytes) : List (String × Json) :=
  [("systemPrompt", .num bytes.systemPrompt), ("prompt", .num bytes.prompt),
    ("toolDefinitions", .num bytes.toolDefinitions), ("total", .num bytes.total)]

def Refusal.fields (refusal : Refusal) : List (String × Json) :=
  [("code", .str refusal.code), ("reason", .str refusal.reason),
    ("message", .str refusal.message)]

def ProviderError.fields (error : ProviderError) : List (String × Json) :=
  Json.fields [("status", error.status.map .num), ("code", error.code.map .str)]

/-- The members of a record in the order in which they are written. -/
def LedgerRecord.fields (record : LedgerRecord) : List (String × Json) :=
  Json.fields [("ts", some (.num record.ts)), ("runId", some (.str record.runId)),
    ("lane", some (.str record.lane)), ("role", some (.str record.role)),
    ("step", some (.str record.step)), ("provider", some (.str record.provider)),
    ("model", some (.str record.model)), ("stopReason", some (.str record.stopReason)),
    ("status", record.status.map .num), ("usage", some (.obj record.usage.fields)),
    ("toolCalls", record.toolCalls.map fun calls => .obj calls.fields),
    ("requestBytes", record.requestBytes.map fun bytes => .obj bytes.fields),
    ("refusal", record.refusal.map fun refusal => .obj refusal.fields),
    ("providerError", record.providerError.map fun error => .obj error.fields),
    ("providerDiagnostic", record.providerDiagnostic.map .str)]

/-- The numbers of a record. -/
def LedgerRecord.numbers (record : LedgerRecord) : List JsNumber :=
  let usage := record.usage
  let cost := usage.cost
  [record.ts, usage.input, usage.output, usage.cacheRead, usage.cacheWrite, usage.totalTokens,
    cost.input, cost.output, cost.cacheRead, cost.cacheWrite, cost.total] ++
    record.status.toList ++ usage.cacheWrite1h.toList ++ usage.reasoning.toList ++
    (record.toolCalls.elim [] fun calls => calls.counts.map (·.2)) ++
    (record.requestBytes.elim [] fun bytes =>
      [bytes.systemPrompt, bytes.prompt, bytes.toolDefinitions, bytes.total]) ++
    (record.providerError.elim [] fun error => error.status.toList)

/-! ## The sink -/

/-- One line of the ledger. -/
def ledgerLine (format : NumberFormat) (record : LedgerRecord) : List Char :=
  valueText format (.obj record.fields) ++ ['\n']

def lineBytes (format : NumberFormat) (record : LedgerRecord) : List Nat :=
  Utf8.encode (ledgerLine format record)

/-- `FileLedgerSink.write` on a file that it can open: the bytes it appends. -/
def sinkWrite (format : NumberFormat) (maxRecordBytes : Nat) (record : LedgerRecord) :
    Except String (List Nat) :=
  if 0 < maxRecordBytes ∧ maxRecordBytes < (lineBytes format record).length then
    .error "ledger record exceeds configured byte limit"
  else .ok (lineBytes format record)

/-! ## Histories -/

/-- The file, and the records whose lines were written completely. -/
structure LedgerWorld where
  file : List Nat
  written : List LedgerRecord

def LedgerWorld.empty : LedgerWorld := ⟨[], []⟩

/-- A write that ends, or one during which the process stops after some bytes of the line. -/
inductive LedgerEvent where
  | write (record : LedgerRecord)
  | crash (record : LedgerRecord) (bytes : Nat)

def LedgerEvent.record : LedgerEvent → LedgerRecord
  | .write record => record
  | .crash record _ => record

/-- One event of a history; the sink throws on a record that is too long. -/
def LedgerWorld.after (format : NumberFormat) (maxRecordBytes : Nat) (world : LedgerWorld)
    (event : LedgerEvent) : LedgerWorld :=
  match sinkWrite format maxRecordBytes event.record, event with
  | .error _, _ => world
  | .ok bytes, .write record => ⟨world.file ++ bytes, world.written ++ [record]⟩
  | .ok bytes, .crash _ size =>
      { world with file := world.file ++ bytes.take (min size (bytes.length - 1)) }

abbrev LedgerStep (format : NumberFormat) (maxRecordBytes : Nat) :
    LedgerWorld → LedgerEvent → LedgerWorld → Prop :=
  fun world event next => next = world.after format maxRecordBytes event

/-- The file ends where a line ends. -/
def EndsLine (file : List Nat) : Prop := file = [] ∨ file.getLast? = some 0x0a

/-- Nothing is appended to a part of a line, the numbers of the record are read back from their
text, and the line is not too long for a reader with the limit. -/
def LedgerAllowed (format : NumberFormat) (readLimit : Nat) (world : LedgerWorld)
    (event : LedgerEvent) : Prop :=
  EndsLine world.file ∧ (∀ n ∈ event.record.numbers, Reads format n) ∧
    isOversized readLimit (valueText format (.obj event.record.fields)) = false

/-! ## Written records are read back -/

section Records

variable {format : NumberFormat}

/-- The numbers decide whether a record is read back. -/
theorem readable_record {record : LedgerRecord} (reads : ∀ n ∈ record.numbers, Reads format n) :
    Readable format (.obj record.fields) := by
  simp only [LedgerRecord.numbers, List.forall_mem_append, List.forall_mem_cons,
    List.not_mem_nil, IsEmpty.forall_iff] at reads
  obtain ⟨⟨⟨⟨⟨⟨counts, status⟩, cacheWrite1h⟩, reasoning⟩, calls⟩, bytes⟩, error⟩ := reads
  have cost : Readable format (.obj record.usage.cost.fields) := by
    rw [Readable, readableFields_iff]
    simp [UsageCost.fields, counts]
  have usage : Readable format (.obj record.usage.fields) := by
    apply readable_object
    · simp only [List.map_cons, List.map_nil]
      decide
    · simp only [Option.mem_toList] at cacheWrite1h reasoning
      simpa [counts, cost] using ⟨cacheWrite1h, reasoning⟩
  have toolCalls (held : ToolCalls) (some' : record.toolCalls = some held) :
      Readable format (.obj held.fields) := by
    rw [some'] at calls
    rw [Readable, readableFields_iff, ToolCalls.fields, List.map_map]
    refine ⟨held.distinct, ?_⟩
    intro field member
    obtain ⟨count, among, rfl⟩ := List.mem_map.mp member
    exact readable_num.mpr (calls count.2 (List.mem_map_of_mem among))
  have requestBytes (held : RequestBytes) (some' : record.requestBytes = some held) :
      Readable format (.obj held.fields) := by
    rw [some'] at bytes
    rw [Readable, readableFields_iff]
    simpa [RequestBytes.fields] using bytes
  have refusal (held : Refusal) : Readable format (.obj held.fields) := by
    rw [Readable, readableFields_iff]
    simp [Refusal.fields]
  have providerError (held : ProviderError) (some' : record.providerError = some held) :
      Readable format (.obj held.fields) := by
    rw [some'] at error
    apply readable_object
    · simp only [List.map_cons, List.map_nil]
      decide
    · simpa using error
  apply readable_object
  · simp only [List.map_cons, List.map_nil]
    decide
  · simp only [Option.mem_toList] at status
    simpa [counts, usage] using ⟨status, toolCalls, requestBytes, fun held _ => refusal held,
      providerError⟩

theorem finite_of_reads {n : JsNumber} (reads : Reads format n) :
    ∃ q, ∀ value, value = some (Json.num n) → finiteNumber? value = some q := by
  cases n with
  | finite q =>
      refine ⟨q, ?_⟩
      rintro _ rfl
      rfl
  | nan => exact absurd reads.finite (by decide)
  | infinity negative => exact absurd reads.finite (by simp [JsNumber.isFinite])

theorem trimList_solid {text : List Char} {x : Char} (member : x ∈ text)
    (solid : Regex.isSpace x = false) : (trimList text).isEmpty = false := by
  rw [← Bool.not_eq_true, List.isEmpty_iff]
  intro empty
  obtain ⟨front, back, whole, left, right⟩ := trimList_part text
  rw [empty, List.append_nil] at whole
  have blank : Regex.isSpace x = true := by
    rw [whole] at member
    exact (List.mem_append.mp member).elim (left x) (right x)
  rw [solid] at blank
  cases blank

theorem readUsage_fields {usage : UsageAmounts}
    (reads : ∀ n ∈ [usage.input, usage.output, usage.cacheRead, usage.cacheWrite,
      usage.totalTokens, usage.cost.total], Reads format n)
    (reason : ∀ n, usage.reasoning = some n → Reads format n) :
    ∃ counted, readUsage (.obj usage.fields) = .ok (some counted) := by
  obtain ⟨input, hinput⟩ := finite_of_reads (reads usage.input (by simp))
  obtain ⟨output, houtput⟩ := finite_of_reads (reads usage.output (by simp))
  obtain ⟨cacheRead, hcacheRead⟩ := finite_of_reads (reads usage.cacheRead (by simp))
  obtain ⟨cacheWrite, hcacheWrite⟩ := finite_of_reads (reads usage.cacheWrite (by simp))
  obtain ⟨totalTokens, htotalTokens⟩ := finite_of_reads (reads usage.totalTokens (by simp))
  obtain ⟨total, htotal⟩ := finite_of_reads (reads usage.cost.total (by simp))
  have cost : Json.lookup "cost" usage.fields = some (.obj usage.cost.fields) := by
    simp [UsageAmounts.fields]
  have paid : Json.lookup "total" usage.cost.fields = some (.num usage.cost.total) := by
    simp [UsageCost.fields]
  have reasoning : Json.lookup "reasoning" usage.fields = usage.reasoning.map .num := by
    simp [UsageAmounts.fields]
  rw [readUsage, hinput _ (by simp [UsageAmounts.fields]),
    houtput _ (by simp [UsageAmounts.fields]), hcacheRead _ (by simp [UsageAmounts.fields]),
    hcacheWrite _ (by simp [UsageAmounts.fields]), htotalTokens _ (by simp [UsageAmounts.fields])]
  simp only [readCost, cost, htotal _ paid]
  cases held : usage.reasoning with
  | none => exact ⟨_, by rw [reasoning, held]; rfl⟩
  | some n =>
      obtain ⟨q, hq⟩ := finite_of_reads (reason n held)
      rw [reasoning, held]
      simp only [Option.map_some, hq _ rfl]
      exact ⟨_, rfl⟩

/-- The reader accepts what the sink wrote. -/
theorem accepted_record {record : LedgerRecord} {readLimit : Nat}
    (reads : ∀ n ∈ record.numbers, Reads format n)
    (fits : isOversized readLimit (valueText format (.obj record.fields)) = false) :
    ∃ entry, accepted format readLimit (valueText format (.obj record.fields)) = some entry ∧
      entry.fields = record.fields := by
  have parsed : JsonText.parse format (valueText format (.obj record.fields)) =
      some (.obj record.fields) := parse_stringify (readable_record reads)
  have solid : (trimList (valueText format (.obj record.fields))).isEmpty = false := by
    rw [valueText_obj]
    exact @trimList_solid _ '\x7b' (by simp) (by decide)
  obtain ⟨ts, hts⟩ := finite_of_reads (reads record.ts (by simp [LedgerRecord.numbers]))
  have counts : ∀ n ∈ [record.usage.input, record.usage.output, record.usage.cacheRead,
      record.usage.cacheWrite, record.usage.totalTokens, record.usage.cost.total],
      Reads format n := by
    simp only [List.forall_mem_cons]
    refine ⟨?_, ?_, ?_, ?_, ?_, ?_, by simp⟩
    all_goals exact reads _ (by simp [LedgerRecord.numbers])
  obtain ⟨counted, hcounted⟩ := readUsage_fields counts fun n held =>
    reads n (by simp [LedgerRecord.numbers, held])
  refine ⟨⟨record.fields, ts, record.runId, record.role, record.model, counted⟩, ?_, rfl⟩
  have usage : Json.lookup "usage" record.fields = some (.obj record.usage.fields) := by
    simp [LedgerRecord.fields]
  have time : Json.lookup "ts" record.fields = some (.num record.ts) := by
    simp [LedgerRecord.fields]
  have texts : Json.lookup "runId" record.fields = some (.str record.runId) ∧
      Json.lookup "role" record.fields = some (.str record.role) ∧
      Json.lookup "model" record.fields = some (.str record.model) := by
    simp [LedgerRecord.fields]
  rw [accepted, fits, parseLedgerLine, solid, parsed]
  simp only [Bool.false_eq_true, if_false, hts _ time, texts, Json.asString?, usage, hcounted]
  rfl

/-! ## A line that was cut short -/

/-- What is left of a line when the process stops during the write. -/
structure CutShort (format : NumberFormat) (readLimit : Nat) (rest : List Nat) : Prop where
  part : ∃ record size, (∀ n ∈ record.numbers, Reads format n) ∧
    isOversized readLimit (valueText format (.obj record.fields)) = false ∧
    size < (lineBytes format record).length ∧ rest = (lineBytes format record).take size

theorem break_notMem_text {record : LedgerRecord} (reads : ∀ n ∈ record.numbers, Reads format n) :
    '\n' ∉ valueText format (.obj record.fields) :=
  break_notMem_valueText _ (readable_record reads)

/-- The text of the part: characters of the record, and then replacements. -/
theorem cutShort_text {record : LedgerRecord} {size : Nat}
    (short : size < (lineBytes format record).length) :
    ∃ front tail, front <+: valueText format (.obj record.fields) ∧
      Utf8.lossy ((lineBytes format record).take size) = front ++ tail ∧
      (∀ x ∈ tail, 0x80 ≤ x.toNat) ∧
      (front = valueText format (.obj record.fields) → tail = []) := by
  obtain ⟨front, tail, ahead, taken, wide⟩ := Utf8.encode_take (ledgerLine format record) size
  have tailWide : ∀ x ∈ Utf8.lossy tail, 0x80 ≤ x.toNat := by
    intro x member
    by_contra ascii
    have among := wide _ (Utf8.mem_of_lossy (by omega) member)
    omega
  have lengths := congrArg List.length taken
  rw [List.length_take] at lengths
  obtain whole | ahead := List.prefix_concat_iff.mp ahead
  · exfalso
    rw [whole, List.length_append] at lengths
    change _ = (lineBytes format record).length + tail.length at lengths
    change min size (lineBytes format record).length = _ at lengths
    omega
  · refine ⟨front, Utf8.lossy tail, ahead, ?_, tailWide, ?_⟩
    · rw [lineBytes, taken, Utf8.lossy_encode_append]
    · rintro rfl
      have begins : tail <+: Utf8.encode ['\n'] := by
        have taken' := List.take_prefix size (Utf8.encode (ledgerLine format record))
        rw [taken, ledgerLine, Utf8.encode_append] at taken'
        exact (List.prefix_append_right_inj _).mp taken'
      obtain rfl | ⟨more, rfl, -⟩ := List.prefix_cons_iff.mp begins
      · rfl
      · exact absurd (wide _ List.mem_cons_self) (by decide)

/-- A part of a line is skipped or, when only the line break is missing, read. -/
theorem unfailing_cutShort {readLimit : Nat} {rest : List Nat}
    (cut : CutShort format readLimit rest) :
    '\n' ∉ Utf8.lossy rest ∧ Unfailing format readLimit (Utf8.lossy rest) := by
  obtain ⟨record, size, reads, fits, short, rfl⟩ := cut.part
  obtain ⟨front, tail, ahead, text, wide, whole⟩ := cutShort_text short
  rw [text]
  constructor
  · intro member
    obtain inside | behind := List.mem_append.mp member
    · exact break_notMem_text reads (ahead.subset inside)
    · exact absurd (wide _ behind) (by decide)
  · intro _
    by_cases complete : front = valueText format (.obj record.fields)
    · rw [whole complete, List.append_nil, complete]
      obtain ⟨entry, found, -⟩ := accepted_record reads fits
      exact ⟨_, (accepted_some found).2.2⟩
    · have unread (other : List (String × Json)) :
          JsonText.parse format (front ++ tail) ≠ some (.obj other) := by
        have plain : ∀ x ∈ tail, x ≠ '\x7b' ∧ x ≠ '\x7d' := by
          intro x member
          have := wide x member
          constructor
          all_goals
            rintro rfl
            exact absurd this (by decide)
        by_cases none : front = []
        · intro read
          obtain ⟨before, inner, after, split, -⟩ := parse_object read
          rw [none, List.nil_append] at split
          exact (plain '\x7b' (by rw [split]; simp)).1 rfl
        · exact parse_of_prefix (readable_record reads) ahead none complete plain other
      exact (parseLedgerLine_sound.mpr fun _ fields read => absurd read (unread fields)).1

end Records

/-! ## Guarded histories -/

section Histories

variable {format : NumberFormat} {sinkLimit readLimit : Nat} {world : LedgerWorld}

/-- The file holds the written lines and, at its end, at most a part of one more. -/
structure Kept (format : NumberFormat) (readLimit : Nat) (world : LedgerWorld) : Prop where
  readable : ∀ record ∈ world.written, (∀ n ∈ record.numbers, Reads format n) ∧
    isOversized readLimit (valueText format (.obj record.fields)) = false
  file : ∃ rest, world.file = world.written.flatMap (lineBytes format) ++ rest ∧
    (rest = [] ∨ CutShort format readLimit rest)

theorem Kept.empty : Kept format readLimit .empty where
  readable := by simp [LedgerWorld.empty]
  file := ⟨[], rfl, .inl rfl⟩

/-- A part of a line does not end where a line ends. -/
theorem nothing_of_endsLine {front rest : List Nat} (ends : EndsLine (front ++ rest))
    (cut : rest = [] ∨ CutShort format readLimit rest) : rest = [] := by
  obtain none | cut := cut
  · exact none
  · by_contra some'
    obtain ends | ends := ends
    · exact some' (List.append_eq_nil_iff.mp ends).2
    · rw [List.getLast?_append_of_ne_nil _ some'] at ends
      obtain ⟨record, size, reads, -, short, rfl⟩ := cut.part
      have among := List.mem_of_getLast? ends
      rw [lineBytes, ledgerLine, Utf8.encode_append] at among short
      have line : Utf8.encode ['\n'] = [0x0a] := rfl
      rw [line, List.length_append, List.length_singleton] at short
      rw [List.take_append_of_le_length (by omega)] at among
      obtain ⟨x, member, same⟩ := Utf8.mem_of_encode (by decide) (List.mem_of_mem_take among)
      obtain rfl : x = '\n' := Char.toNat_inj.mp same
      exact break_notMem_text reads member

theorem Kept.step (kept : Kept format readLimit world) {event : LedgerEvent}
    (allowed : LedgerAllowed format readLimit world event) :
    Kept format readLimit (world.after format sinkLimit event) := by
  obtain ⟨ends, reads, fits⟩ := allowed
  obtain ⟨rest, file, cut⟩ := kept.file
  rw [file] at ends
  obtain rfl := nothing_of_endsLine ends cut
  rw [List.append_nil] at file
  unfold LedgerWorld.after
  cases written : sinkWrite format sinkLimit event.record with
  | error error => exact kept
  | ok bytes =>
      obtain rfl : lineBytes format event.record = bytes := by
        rw [sinkWrite] at written
        split_ifs at written
        exact Except.ok.inj written
      cases event with
      | write record =>
          refine ⟨?_, [], ?_, .inl rfl⟩
          · intro other member
            obtain old | new := List.mem_append.mp member
            · exact kept.readable other old
            · rw [List.mem_singleton.mp new]
              exact ⟨reads, fits⟩
          · simp [file, LedgerEvent.record]
      | crash record size =>
          refine ⟨kept.readable, (lineBytes format record).take
            (min size ((lineBytes format record).length - 1)), ?_,
            .inr ⟨record, _, reads, fits, ?_, rfl⟩⟩
          · rw [← file]
            rfl
          · have some' : 0 < (lineBytes format record).length := by
              simp [lineBytes, ledgerLine, Utf8.encode_append, Utf8.encodeChar_eq]
            omega

theorem splitOn_lines {texts : List (List Char)} {rest : List Char}
    (free : ∀ text ∈ texts, '\n' ∉ text) (last : '\n' ∉ rest) :
    (texts.flatMap (· ++ ['\n']) ++ rest).splitOn '\n' = texts ++ [rest] := by
  induction texts with
  | nil => exact List.splitOn_eq_singleton last
  | cons text more ih =>
      obtain ⟨fresh, later⟩ := List.forall_mem_cons.mp free
      rw [List.flatMap_cons, List.append_assoc, List.append_assoc, List.singleton_append,
        List.splitOn_append_cons_self_of_not_mem fresh, ih later, List.cons_append]

/-- What is read from the file are the records that were written, in order. -/
theorem Kept.reads (kept : Kept format readLimit world) :
    ∃ read, readLedgerRecords format readLimit world.file = .ok read ∧
      ∃ more, read.records.map (·.fields) = world.written.map (·.fields) ++ more := by
  obtain ⟨rest, file, cut⟩ := kept.file
  obtain ⟨single, unfailing⟩ : '\n' ∉ Utf8.lossy rest ∧
      Unfailing format readLimit (Utf8.lossy rest) := by
    obtain rfl | cut := cut
    · exact ⟨by simp, fun _ => ⟨none, rfl⟩⟩
    · exact unfailing_cutShort cut
  have text : Utf8.lossy world.file =
      (world.written.map fun record => valueText format (.obj record.fields)).flatMap
        (· ++ ['\n']) ++ Utf8.lossy rest := by
    have bytes : world.written.flatMap (lineBytes format) =
        Utf8.encode (world.written.flatMap (ledgerLine format)) := by
      rw [Utf8.encode, List.flatMap_assoc]
      rfl
    rw [file, bytes, Utf8.lossy_encode_append, List.flatMap_map]
    rfl
  have free : ∀ line ∈ world.written.map fun record => valueText format (.obj record.fields),
      '\n' ∉ line := by
    intro line member
    obtain ⟨record, among, rfl⟩ := List.mem_map.mp member
    exact break_notMem_text (kept.readable record among).1
  have lines := splitOn_lines free single
  have readable : ∀ line ∈ (world.written.map fun record =>
      valueText format (.obj record.fields)) ++ [Utf8.lossy rest],
      Unfailing format readLimit line := by
    intro line member
    obtain inside | last := List.mem_append.mp member
    · obtain ⟨record, among, rfl⟩ := List.mem_map.mp inside
      obtain ⟨reads, fits⟩ := kept.readable record among
      obtain ⟨entry, found, -⟩ := accepted_record reads fits
      exact fun _ => ⟨_, (accepted_some found).2.2⟩
    · rw [List.mem_singleton.mp last]
      exact unfailing
  have done := foldlM_readLedgerLine readable ⟨[], 0⟩
  rw [← lines, ← text] at done
  refine ⟨_, done, ((accepted format readLimit (Utf8.lossy rest)).toList).map (·.fields), ?_⟩
  have records : ((world.written.map fun record =>
      valueText format (.obj record.fields)).filterMap (accepted format readLimit)).map
        (·.fields) = world.written.map (·.fields) := by
    have each := kept.readable
    generalize world.written = written at each
    induction written with
    | nil => rfl
    | cons record more ih =>
        obtain ⟨⟨reads, fits⟩, later⟩ := List.forall_mem_cons.mp each
        obtain ⟨entry, found, same⟩ := accepted_record reads fits
        rw [List.map_cons, List.filterMap_cons, found, List.map_cons, ih later, same,
          List.map_cons]
  have last : [Utf8.lossy rest].filterMap (accepted format readLimit) =
      (accepted format readLimit (Utf8.lossy rest)).toList := by
    cases found : accepted format readLimit (Utf8.lossy rest) <;> simp [found]
  rw [List.nil_append, text, lines, List.filterMap_append, last, List.map_append, records]

/-- In a history that appends to no part of a line, all lines that were written are read. -/
theorem ledger_kept {events : List LedgerEvent}
    (run : Run (Guarded (LedgerStep format sinkLimit) (LedgerAllowed format readLimit)) .empty
      events world) : Kept format readLimit world := by
  refine run.invariant (fun kept step => ?_) .empty
  rw [step.2]
  exact kept.step step.1

/-- A file is read without an error, its lines are counted and its records are reported, exactly
when all of its lines are sound; and in every history that appends to no part of a line the
records whose lines were written are read, in order. -/
theorem ledger_lenient_lossless (host : ReportHost) (sinkLimit readLimit : Nat) :
    (∀ file, (∃ read, readLedgerRecords host.format readLimit file = .ok read ∧
        read.records.length + read.skippedLines =
          ((Utf8.lossy file).splitOn '\n').countP (fun line => !(trimList line).isEmpty) ∧
        Succeeds (aggregateLedgerRecords host read.records [])) ↔
      ∀ line ∈ (Utf8.lossy file).splitOn '\n', SoundLine host.format readLimit line) ∧
    ∀ events world, Run (Guarded (LedgerStep host.format sinkLimit)
        (LedgerAllowed host.format readLimit)) .empty events world →
      ∃ read, readLedgerRecords host.format readLimit world.file = .ok read ∧
        ∃ more, read.records.map (·.fields) = world.written.map (·.fields) ++ more :=
  ⟨reads_iff host readLimit, fun _ _ run => (ledger_kept run).reads⟩

end Histories

/-! ## Lines that are lost and lines that throw -/

def oneRecord : LedgerRecord where
  ts := 1
  runId := "r"
  lane := "l"
  role := "o"
  step := "s"
  provider := "p"
  model := "m"
  stopReason := "stop"
  status := none
  usage := ⟨1, 1, 0, 0, none, none, 2, ⟨0, 0, 0, 0, 0⟩⟩
  toolCalls := none
  requestBytes := none
  refusal := none
  providerError := none
  providerDiagnostic := none

/-- A line of a record without a usage. -/
def nullUsage : String :=
  "\x7b\"ts\":1,\"runId\":\"r\",\"role\":\"o\",\"model\":\"m\",\"usage\":null\x7d"

def errorOf {α : Type} : Except String α → Option String
  | .ok _ => none
  | .error error => some error

/-- A process that stops after one byte, and the next process. -/
def cutHistory : List LedgerEvent := [.crash oneRecord 1, .write oneRecord]

/-- No object starts with two braces. -/
theorem parse_braces (format : NumberFormat) (more : List Char) :
    JsonText.parse format ('\x7b' :: '\x7b' :: more) = none := by
  have opened (rest : List Char) : skip ('\x7b' :: rest) = '\x7b' :: rest := rfl
  rw [JsonText.parse, readValue, opened]
  simp only [opened]
  rfl

/-- A `null` usage makes the reader throw. After a write of one byte the next record is written
and not read. -/
theorem ledger_lenient_lossless_refuted :
    errorOf (readLedgerRecords decimalFormat 0 (Utf8.encode nullUsage.toList)) =
        some "Cannot read properties of null (reading 'input')" ∧
      let world := cutHistory.foldl (LedgerWorld.after decimalFormat 0) .empty
      Run (LedgerStep decimalFormat 0) .empty cutHistory world ∧ world.written = [oneRecord] ∧
        ∃ read, readLedgerRecords decimalFormat 0 world.file = .ok read ∧ read.records = [] := by
  refine ⟨by decide +kernel, Run.foldl _ _ _, rfl, ?_⟩
  have reads : ∀ n ∈ oneRecord.numbers, Reads decimalFormat n := by
    have small : ∀ n ∈ oneRecord.numbers, n = 0 ∨ n = 1 ∨ n = 2 := by decide
    intro n member
    obtain rfl | rfl | rfl := small n member
    · exact @reads_nat _ decimalFormat_decimal 0 (by decide)
    · exact @reads_nat _ decimalFormat_decimal 1 (by decide)
    · exact @reads_nat _ decimalFormat_decimal 2 (by decide)
  obtain ⟨more, text⟩ : ∃ more, valueText decimalFormat (.obj oneRecord.fields) = '\x7b' :: more :=
    ⟨_, valueText_obj _⟩
  have bytes : lineBytes decimalFormat oneRecord = 0x7b :: Utf8.encode (more ++ ['\n']) := by
    rw [lineBytes, ledgerLine, text]
    rfl
  have file : (cutHistory.foldl (LedgerWorld.after decimalFormat 0) .empty).file =
      Utf8.encode ('\x7b' :: '\x7b' :: more ++ ['\n']) := by
    have line : 0 < (Utf8.encode (more ++ ['\n'])).length := by
      rw [Utf8.encode_append, List.length_append]
      exact Nat.lt_add_left _ (by decide)
    have one : min 1 (Utf8.encode (more ++ ['\n'])).length = 1 := by omega
    simp only [cutHistory, List.foldl_cons, List.foldl_nil, LedgerWorld.after, sinkWrite,
      LedgerEvent.record, LedgerWorld.empty, Nat.lt_irrefl, false_and, if_false, bytes,
      List.length_cons, Nat.add_sub_cancel, one]
    rfl
  have single : '\n' ∉ '\x7b' :: '\x7b' :: more := by
    have fresh := break_notMem_text reads
    rw [text] at fresh
    simpa using fresh
  have lines : (Utf8.lossy (Utf8.encode ('\x7b' :: '\x7b' :: more ++ ['\n']))).splitOn '\n' =
      ['\x7b' :: '\x7b' :: more, []] := by
    rw [Utf8.lossy_encode]
    exact List.splitOn_append_cons_self_of_not_mem single []
  have skipped : ∀ line ∈ ['\x7b' :: '\x7b' :: more, []],
      parseLedgerLine decimalFormat line = .ok none := by
    rw [List.forall_mem_cons, List.forall_mem_singleton]
    constructor
    · rw [parseLedgerLine, parse_braces]
      split_ifs <;> rfl
    · rfl
  have done := @foldlM_readLedgerLine decimalFormat 0 _
    (fun line member _ => ⟨none, skipped line member⟩) ⟨[], 0⟩
  rw [← lines, ← file] at done
  refine ⟨_, done, ?_⟩
  rw [List.nil_append, file, lines, List.filterMap_eq_nil_iff]
  intro line member
  rw [accepted, skipped line member]
  rfl

end AdCoder.Ledger
