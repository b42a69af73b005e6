import AdCoder.Foundation.JsonReaders
import AdCoder.Foundation.Utf8Streams
import Mathlib.Algebra.GroupWithZero.Nat

/-!
# Reading a ledger back

A ledger file has one JSON record on each line. The reader skips the lines that
hold no record, and the report adds up the numbers of the others. Reading a
property of `null` throws, and so does printing an object whose `toString` is
not a function.
-/

namespace AdCoder.Ledger

open Foundation Foundation.Regex

/-- What the engine computes with numbers and texts. -/
structure ReportHost where
  format : NumberFormat
  add : JsNumber → JsNumber → JsNumber
  sub : JsNumber → JsNumber → JsNumber
  div : JsNumber → JsNumber → JsNumber
  toNumber : String → JsNumber
  localeCompare : String → String → Int

/-! ## Lines -/

/-- `isFiniteNumber`, with the number. -/
def finiteNumber? : Option Json → Option Rat
  | some (.num (.finite q)) => some q
  | _ => none

/-- The counted part of a record's usage. -/
structure CountedUsage where
  input : Rat
  output : Rat
  cacheRead : Rat
  cacheWrite : Rat
  totalTokens : Rat
  costTotal : Rat
  reasoning : Option Rat

/-- A record that the reader accepts: all of its fields, and those that were checked. -/
structure LedgerEntry where
  fields : List (String × Json)
  ts : Rat
  runId : String
  role : String
  model : String
  usage : CountedUsage

def nullProperty (name : String) : String :=
  "Cannot read properties of null (reading '" ++ name ++ "')"

/-- The checks of `usage.cost.total` and of `usage.reasoning`. -/
def readCost (usage : List (String × Json)) (input output cacheRead cacheWrite totalTokens : Rat) :
    Except String (Option CountedUsage) :=
  match Json.lookup "cost" usage with
  | some .null => .error (nullProperty "total")
  | some (.obj cost) =>
      match finiteNumber? (Json.lookup "total" cost) with
      | none => .ok none
      | some total =>
          match Json.lookup "reasoning" usage with
          | none => .ok (some ⟨input, output, cacheRead, cacheWrite, totalTokens, total, none⟩)
          | some reasoning => .ok ((finiteNumber? (some reasoning)).map fun reasoning =>
              ⟨input, output, cacheRead, cacheWrite, totalTokens, total, some reasoning⟩)
  | _ => .ok none

/-- The checks of `usage`. No property of a text, a number or an array has one of the names. -/
def readUsage : Json → Except String (Option CountedUsage)
  | .null => .error (nullProperty "input")
  | .obj usage =>
      match finiteNumber? (Json.lookup "input" usage), finiteNumber? (Json.lookup "output" usage),
          finiteNumber? (Json.lookup "cacheRead" usage),
          finiteNumber? (Json.lookup "cacheWrite" usage),
          finiteNumber? (Json.lookup "totalTokens" usage) with
      | some input, some output, some cacheRead, some cacheWrite, some totalTokens =>
          readCost usage input output cacheRead cacheWrite totalTokens
      | _, _, _, _, _ => .ok none
  | _ => .ok none

/-- `parseLedgerLine`; an error is a TypeError that it throws. -/
def parseLedgerLine (format : NumberFormat) (line : List Char) :
    Except String (Option LedgerEntry) :=
  if (trimList line).isEmpty then .ok none
  else
    match JsonText.parse format line with
    | some (.obj fields) =>
        match finiteNumber? (Json.lookup "ts" fields), Json.asString? (Json.lookup "runId" fields),
            Json.asString? (Json.lookup "role" fields),
            Json.asString? (Json.lookup "model" fields), Json.lookup "usage" fields with
        | some ts, some runId, some role, some model, some usage =>
            (readUsage usage).map fun found =>
              found.map fun usage => ⟨fields, ts, runId, role, model, usage⟩
        | _, _, _, _, _ => .ok none
    | _ => .ok none

/-! ## Files -/

structure LedgerRecordsRead where
  records : List LedgerEntry
  skippedLines : Nat

def LedgerRecordsRead.skip (read : LedgerRecordsRead) : LedgerRecordsRead :=
  { read with skippedLines := read.skippedLines + 1 }

/-- The line is longer than the limit; a limit of zero is no limit. -/
def isOversized (maxRecordBytes : Nat) (line : List Char) : Bool :=
  0 < maxRecordBytes && maxRecordBytes < (Utf8.encode line).length

def readLedgerLine (format : NumberFormat) (maxRecordBytes : Nat) (read : LedgerRecordsRead)
    (line : List Char) : Except String LedgerRecordsRead :=
  if isOversized maxRecordBytes line then .ok read.skip
  else (parseLedgerLine format line).map fun
    | some record => { read with records := read.records ++ [record] }
    | none => if (trimList line).isEmpty then read else read.skip

/-- `readLedgerRecords` on the bytes of the file. -/
def readLedgerRecords (format : NumberFormat) (maxRecordBytes : Nat) (file : List Nat) :
    Except String LedgerRecordsRead :=
  ((Utf8.lossy file).splitOn '\n').foldlM (readLedgerLine format maxRecordBytes) ⟨[], 0⟩

/-! ## Texts of values -/

mutual
/-- `String(value)`. An object's own `toString` is JSON, so it is no function. -/
def toText (host : ReportHost) : Json → Except String String
  | .null => .ok "null"
  | .bool value => .ok (if value then "true" else "false")
  | .num value => .ok (host.format.print value)
  | .str value => .ok value
  | .arr items => (itemTexts host items).map fun texts => ",".intercalate texts
  | .obj fields =>
      match Json.lookup "toString" fields with
      | some _ => .error "Cannot convert object to primitive value"
      | none => .ok "[object Object]"

/-- The texts that `join` puts together: that of `null` is empty. -/
def itemTexts (host : ReportHost) : List Json → Except String (List String)
  | [] => .ok []
  | item :: rest => do
      let text ← match item with
        | .null => .ok ""
        | item => toText host item
      let texts ← itemTexts host rest
      return text :: texts
end

def isPositive : JsNumber → Bool
  | .nan => false
  | .infinity negative => !negative
  | .finite q => 0 < q

/-- `(value ?? 0) > 0`. -/
def exceedsZero (host : ReportHost) : Option Json → Except String Bool
  | none => .ok false
  | some .null => .ok false
  | some (.bool value) => .ok value
  | some (.num value) => .ok (isPositive value)
  | some value => (toText host value).map fun text => isPositive (host.toNumber text)

/-- `record.toolCalls?.edit`. -/
def editCalls (record : LedgerEntry) : Option Json :=
  match Json.lookup "toolCalls" record.fields with
  | some (.obj counts) => Json.lookup "edit" counts
  | _ => none

/-- `Object.entries(record.toolCalls ?? {})`, without those of a text, which are texts. -/
def toolEntries (record : LedgerEntry) : List (String × Json) :=
  match Json.lookup "toolCalls" record.fields with
  | some (.obj counts) => counts
  | some (.arr items) => items.zipIdx.map fun item => (toString item.2, item.1)
  | _ => []

/-! ## Reports -/

structure ToolCount where
  tool : String
  calls : JsNumber

structure LedgerScopeStats where
  scope : String
  modelCalls : Nat
  freshInput : JsNumber
  cachedInputRead : JsNumber
  cachedInputWrite : JsNumber
  output : JsNumber
  reasoning : Option JsNumber
  costUsd : JsNumber
  toolCalls : List ToolCount
  bashCalls : JsNumber
  editCalls : JsNumber
  bashCallsPerEdit : Option JsNumber
  cacheFraction : Option JsNumber
  runRoleCalls : JsNumber
  firstEditAt : Option Rat
  timeToFirstEditMs : Option JsNumber

structure LedgerFileStats where
  path : String
  records : Nat
  skippedLines : Nat

structure LedgerReport where
  files : List LedgerFileStats
  recordsRead : Nat
  skippedLines : Nat
  total : LedgerScopeStats
  perRole : List LedgerScopeStats
  perModel : List LedgerScopeStats

/-- The sums of `aggregateScope` while it goes through the records. -/
structure ScopeSums where
  freshInput : JsNumber
  cachedRead : JsNumber
  cachedWrite : JsNumber
  output : JsNumber
  cost : JsNumber
  reasoning : Option JsNumber
  tools : List (String × JsNumber)
  firstModelCallAt : Option Rat
  firstEditAt : Option Rat

def ScopeSums.empty : ScopeSums := ⟨0, 0, 0, 0, 0, none, [], none, none⟩

/-- `tools.set(tool, (tools.get(tool) ?? 0) + calls)`. -/
def addCalls (host : ReportHost) (tool : String) (calls : JsNumber) :
    List (String × JsNumber) → List (String × JsNumber)
  | [] => [(tool, host.add 0 calls)]
  | (name, count) :: rest =>
      if name = tool then (name, host.add count calls) :: rest
      else (name, count) :: addCalls host tool calls rest

def countTools (host : ReportHost) (tools : List (String × JsNumber))
    (entries : List (String × Json)) : List (String × JsNumber) :=
  entries.foldl (fun tools entry =>
    match finiteNumber? (some entry.2) with
    | some calls => if 0 < calls then addCalls host entry.1 (.finite calls) tools else tools
    | none => tools) tools

/-- The earlier of two times. -/
def earliest (ts : Rat) : Option Rat → Rat
  | none => ts
  | some first => if ts < first then ts else first

def addRecord (host : ReportHost) (sums : ScopeSums) (record : LedgerEntry) :
    Except String ScopeSums :=
  (exceedsZero host (editCalls record)).map fun edited =>
    { freshInput := host.add sums.freshInput (.finite record.usage.input)
      cachedRead := host.add sums.cachedRead (.finite record.usage.cacheRead)
      cachedWrite := host.add sums.cachedWrite (.finite record.usage.cacheWrite)
      output := host.add sums.output (.finite record.usage.output)
      cost := host.add sums.cost (.finite record.usage.costTotal)
      reasoning := match record.usage.reasoning with
        | none => sums.reasoning
        | some reasoning => some (host.add (sums.reasoning.getD 0) (.finite reasoning))
      tools := countTools host sums.tools (toolEntries record)
      firstModelCallAt := some (earliest record.ts sums.firstModelCallAt)
      firstEditAt :=
        if edited then some (earliest record.ts sums.firstEditAt) else sums.firstEditAt }

/-- The order of the tools: by calls, the most first, then by name. -/
def toolBefore (host : ReportHost) (left right : ToolCount) : Bool :=
  let difference := host.sub right.calls left.calls
  if difference = 0 ∨ difference = .nan then host.localeCompare left.tool right.tool ≤ 0
  else !isPositive difference

def callsOf (tools : List (String × JsNumber)) (tool : String) : JsNumber :=
  (tools.lookup tool).getD 0

def aggregateScope (host : ReportHost) (scope : String) (records : List LedgerEntry) :
    Except String LedgerScopeStats :=
  (records.foldlM (addRecord host) .empty).map fun sums =>
    let bashCalls := callsOf sums.tools "bash"
    let editCalls := callsOf sums.tools "edit"
    let cachedInput := host.add sums.cachedRead sums.cachedWrite
    let denominator := host.add sums.freshInput cachedInput
    { scope
      modelCalls := records.length
      freshInput := sums.freshInput
      cachedInputRead := sums.cachedRead
      cachedInputWrite := sums.cachedWrite
      output := sums.output
      reasoning := sums.reasoning
      costUsd := sums.cost
      toolCalls := (sums.tools.map fun entry => ⟨entry.1, entry.2⟩).mergeSort (toolBefore host)
      bashCalls
      editCalls
      bashCallsPerEdit := if editCalls = 0 then none else some (host.div bashCalls editCalls)
      cacheFraction :=
        if denominator = 0 then none else some (host.div cachedInput denominator)
      runRoleCalls := callsOf sums.tools "run_role"
      firstEditAt := sums.firstEditAt
      timeToFirstEditMs := match sums.firstEditAt, sums.firstModelCallAt with
        | some edit, some call => some (host.sub (.finite edit) (.finite call))
        | _, _ => none }

/-- Put a record into the group of its key. -/
def insertGroup (key : String) (record : LedgerEntry) :
    List (String × List LedgerEntry) → List (String × List LedgerEntry)
  | [] => [(key, [record])]
  | (name, bucket) :: rest =>
      if name = key then (name, bucket ++ [record]) :: rest
      else (name, bucket) :: insertGroup key record rest

def group (records : List LedgerEntry) (key : LedgerEntry → Except String String) :
    Except String (List (String × List LedgerEntry)) :=
  records.foldlM (fun groups record => (key record).map fun key => insertGroup key record groups) []

/-- `byCostDesc`. -/
def costBefore (host : ReportHost) (left right : LedgerScopeStats) : Bool :=
  !isPositive (host.sub right.costUsd left.costUsd)

def aggregateGroups (host : ReportHost) (groups : List (String × List LedgerEntry)) :
    Except String (List LedgerScopeStats) :=
  (groups.mapM fun entry => aggregateScope host entry.1 entry.2).map fun stats =>
    stats.mergeSort (costBefore host)

/-- `${record.provider}/${record.model}`. -/
def providerModel (host : ReportHost) (record : LedgerEntry) : Except String String :=
  match Json.lookup "provider" record.fields with
  | none => .ok ("undefined/" ++ record.model)
  | some provider => (toText host provider).map fun text => text ++ "/" ++ record.model

def aggregateLedgerRecords (host : ReportHost) (records : List LedgerEntry)
    (files : List LedgerFileStats) : Except String LedgerReport := do
  let total ← aggregateScope host "total" records
  let perRole ← aggregateGroups host (← group records fun record => .ok record.role)
  let perModel ← aggregateGroups host (← group records (providerModel host))
  return ⟨files, records.length, (files.map (·.skippedLines)).sum, total, perRole, perModel⟩

end AdCoder.Ledger
