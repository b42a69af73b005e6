import AdCoder.Ledger.Analytics

/-!
# When a ledger is read without an error

The reader throws on a line that it would otherwise accept or skip when `usage`
or its `cost` is `null`; the report throws on a record whose provider or number
of edits has a `toString` of its own. A blank line is counted when it is longer
than the limit.
-/

namespace AdCoder.Ledger

open Foundation Foundation.Regex

/-! ## Computations that do not throw -/

section Succeeds

variable {α β γ ε : Type}

/-- The computation throws nothing. -/
def Succeeds (x : Except ε α) : Prop := ∃ a, x = .ok a

@[simp] theorem succeeds_ok (a : α) : Succeeds (.ok a : Except ε α) := ⟨a, rfl⟩

@[simp] theorem not_succeeds_error (error : ε) : ¬ Succeeds (.error error : Except ε α) := by
  rintro ⟨a, same⟩
  cases same

@[simp] theorem succeeds_map {x : Except ε α} {f : α → β} : Succeeds (x.map f) ↔ Succeeds x := by
  cases x with
  | error error => simp [Except.map]
  | ok a => simp [Except.map]

/-- A computation, and a second one whose result goes in front of it. -/
theorem succeeds_then {x : Except ε α} {y : Except ε (List α)} :
    Succeeds (do let first ← x; let others ← y; return first :: others) ↔
      Succeeds x ∧ Succeeds y := by
  cases x <;> cases y <;> simp [bind, Except.bind, pure, Except.pure]

/-- A fold whose steps succeed or not by the item alone. -/
theorem succeeds_foldlM {f : β → α → Except ε β} {good : α → Prop} {items : List α} {start : β}
    (step : ∀ state, ∀ item ∈ items, Succeeds (f state item) ↔ good item) :
    Succeeds (items.foldlM f start) ↔ ∀ item ∈ items, good item := by
  induction items generalizing start with
  | nil => simp [pure, Except.pure]
  | cons item rest ih =>
      have first := step start item List.mem_cons_self
      rw [List.foldlM_cons, List.forall_mem_cons, ← first]
      cases here : f start item with
      | error error => simp [bind, Except.bind]
      | ok next =>
          have later := @ih next fun state other member =>
            step state other (List.mem_cons_of_mem item member)
          simpa [bind, Except.bind] using later

theorem succeeds_mapM {f : α → Except ε β} {items : List α} :
    Succeeds (items.mapM f) ↔ ∀ item ∈ items, Succeeds (f item) := by
  induction items with
  | nil => simp [pure, Except.pure]
  | cons item rest ih =>
      rw [List.mapM_cons, List.forall_mem_cons, ← ih, ← succeeds_then]

end Succeeds

/-! ## Values that can be printed -/

mutual
/-- No object in the value, through arrays, has a property `toString`. -/
def Printable : Json → Prop
  | .arr items => PrintableItems items
  | .obj fields => Json.lookup "toString" fields = none
  | _ => True

def PrintableItems : List Json → Prop
  | [] => True
  | item :: rest => Printable item ∧ PrintableItems rest
end

section Reports

variable {host : ReportHost}

mutual
theorem succeeds_toText : ∀ value, Succeeds (toText host value) ↔ Printable value
  | .null | .bool _ | .num _ | .str _ => by simp [toText, Printable]
  | .arr items => by simp [toText, Printable, succeeds_itemTexts items]
  | .obj fields => by
      rw [toText, Printable]
      cases Json.lookup "toString" fields <;> simp

theorem succeeds_itemTexts : ∀ items, Succeeds (itemTexts host items) ↔ PrintableItems items
  | [] => by simp [itemTexts, PrintableItems]
  | item :: rest => by
      have later := succeeds_itemTexts rest
      rw [PrintableItems, ← later]
      cases item with
      | null =>
          rw [itemTexts, succeeds_then]
          simp [Printable]
      | _ =>
          rw [itemTexts, succeeds_then, succeeds_toText]
          intro same
          cases same
end

theorem succeeds_exceedsZero (value : Option Json) :
    Succeeds (exceedsZero host value) ↔ ∀ found, value = some found → Printable found := by
  cases value with
  | none => simp [exceedsZero]
  | some value =>
      simp only [Option.some.injEq, forall_eq']
      cases value with
      | null | bool _ | num _ => simp [exceedsZero, Printable]
      | _ => rw [exceedsZero, succeeds_map, succeeds_toText] <;> simp

/-! ## The report -/

/-- The report prints the provider and compares the number of edits with zero. -/
def Reportable (fields : List (String × Json)) : Prop :=
  (∀ provider, Json.lookup "provider" fields = some provider → Printable provider) ∧
    ∀ counts edits, Json.lookup "toolCalls" fields = some (.obj counts) →
      Json.lookup "edit" counts = some edits → Printable edits

/-- The part of `Reportable` that a scope reads. -/
def Comparable (record : LedgerEntry) : Prop :=
  ∀ edits, editCalls record = some edits → Printable edits

theorem reportable_iff (record : LedgerEntry) : Reportable record.fields ↔
    Comparable record ∧ Succeeds (providerModel host record) := by
  have edits : (∀ counts edits, Json.lookup "toolCalls" record.fields = some (.obj counts) →
      Json.lookup "edit" counts = some edits → Printable edits) ↔ Comparable record := by
    rw [Comparable, editCalls]
    split
    · next counts found =>
        rw [found]
        constructor
        · exact fun each edits => each counts edits rfl
        · rintro each _ edits ⟨⟩
          exact each edits
    · next other =>
        constructor
        · intro _ edits none
          cases none
        · intro _ counts edits found
          exact absurd found (other counts)
  have provider : (∀ provider, Json.lookup "provider" record.fields = some provider →
      Printable provider) ↔ Succeeds (providerModel host record) := by
    rw [providerModel]
    split
    · next none => simp [none]
    · next provider found => rw [succeeds_map, succeeds_toText]; simp [found]
  rw [Reportable, edits, provider, and_comm]

theorem succeeds_aggregateScope (scope : String) (records : List LedgerEntry) :
    Succeeds (aggregateScope host scope records) ↔ ∀ record ∈ records, Comparable record := by
  rw [aggregateScope, succeeds_map]
  apply succeeds_foldlM
  intro sums record _
  rw [addRecord, succeeds_map, succeeds_exceedsZero, Comparable]

theorem mem_insertGroup {key : String} {record : LedgerEntry}
    {groups : List (String × List LedgerEntry)} {entry : String × List LedgerEntry}
    (member : entry ∈ insertGroup key record groups) :
    ∀ held ∈ entry.2, held = record ∨ ∃ earlier ∈ groups, held ∈ earlier.2 := by
  induction groups with
  | nil =>
      rw [insertGroup, List.mem_singleton] at member
      simp [member]
  | cons first rest ih =>
      intro held among
      rw [insertGroup] at member
      split_ifs at member with same
      · obtain rfl | later := List.mem_cons.mp member
        · obtain old | new := List.mem_append.mp among
          · exact .inr ⟨first, List.mem_cons_self, old⟩
          · exact .inl (List.mem_singleton.mp new)
        · exact .inr ⟨entry, List.mem_cons_of_mem first later, among⟩
      · obtain rfl | later := List.mem_cons.mp member
        · exact .inr ⟨_, List.mem_cons_self, among⟩
        · obtain same | ⟨earlier, found, inside⟩ := ih later held among
          · exact .inl same
          · exact .inr ⟨earlier, List.mem_cons_of_mem first found, inside⟩

/-- The records in the groups are those that were grouped. -/
theorem mem_group {records : List LedgerEntry} {key : LedgerEntry → Except String String}
    {groups start : List (String × List LedgerEntry)}
    (grouped : records.foldlM (fun groups record =>
      (key record).map fun key => insertGroup key record groups) start = .ok groups) :
    ∀ entry ∈ groups, ∀ held ∈ entry.2,
      held ∈ records ∨ ∃ earlier ∈ start, held ∈ earlier.2 := by
  induction records generalizing start with
  | nil =>
      obtain rfl := Except.ok.inj grouped
      exact fun entry member held among => .inr ⟨entry, member, among⟩
  | cons record rest ih =>
      rw [List.foldlM_cons, bind_eq_ok] at grouped
      obtain ⟨next, first, later⟩ := grouped
      intro entry member held among
      obtain old | ⟨earlier, found, inside⟩ := ih later entry member held among
      · exact .inl (List.mem_cons_of_mem record old)
      · cases name : key record with
        | error error => rw [name] at first; cases first
        | ok name' =>
            rw [name] at first
            obtain rfl := Except.ok.inj first
            obtain rfl | ⟨group, known, deep⟩ := mem_insertGroup found held inside
            · exact .inl List.mem_cons_self
            · exact .inr ⟨group, known, deep⟩

theorem succeeds_aggregateGroups {groups : List (String × List LedgerEntry)}
    (comparable : ∀ entry ∈ groups, ∀ record ∈ entry.2, Comparable record) :
    Succeeds (aggregateGroups host groups) := by
  rw [aggregateGroups, succeeds_map, succeeds_mapM]
  intro entry member
  rw [succeeds_aggregateScope]
  exact comparable entry member

/-- The report is made exactly when every record can be reported. -/
theorem succeeds_aggregateLedgerRecords (records : List LedgerEntry)
    (files : List LedgerFileStats) : Succeeds (aggregateLedgerRecords host records files) ↔
      ∀ record ∈ records, Reportable record.fields := by
  have total := @succeeds_aggregateScope host "total" records
  have models : Succeeds (group records (providerModel host)) ↔
      ∀ record ∈ records, Succeeds (providerModel host record) := by
    apply succeeds_foldlM
    intro groups record _
    rw [succeeds_map]
  have roles : Succeeds (group records fun record => .ok record.role) := by
    have step := @succeeds_foldlM LedgerEntry _ String (fun groups record =>
      (Except.ok record.role).map fun key => insertGroup key record groups) (fun _ => True) records
      [] fun groups record _ => by simp
    exact step.mpr fun _ _ => trivial
  constructor
  · rintro ⟨report, made⟩
    simp only [aggregateLedgerRecords, bind_eq_ok] at made
    obtain ⟨all, hall, _, _, _, _, groups, hgroups, _⟩ := made
    have comparable := total.mp ⟨all, hall⟩
    have providers := models.mp ⟨groups, hgroups⟩
    intro record member
    exact (reportable_iff record).mpr ⟨comparable record member, providers record member⟩
  · intro reportable
    have comparable : ∀ record ∈ records, Comparable record := fun record member =>
      ((@reportable_iff host record).mp (reportable record member)).1
    obtain ⟨all, hall⟩ := total.mpr comparable
    obtain ⟨byRole, hbyRole⟩ := roles
    obtain ⟨byModel, hbyModel⟩ := models.mpr fun record member =>
      ((reportable_iff record).mp (reportable record member)).2
    have inside {groups : List (String × List LedgerEntry)}
        (known : ∀ entry ∈ groups, ∀ held ∈ entry.2, held ∈ records ∨
          ∃ earlier ∈ ([] : List (String × List LedgerEntry)), held ∈ earlier.2) :
        ∀ entry ∈ groups, ∀ record ∈ entry.2, Comparable record := by
      intro entry member record among
      obtain old | ⟨_, none, _⟩ := known entry member record among
      · exact comparable record old
      · cases none
    obtain ⟨perRole, hperRole⟩ := @succeeds_aggregateGroups host _ (inside (mem_group hbyRole))
    obtain ⟨perModel, hperModel⟩ := @succeeds_aggregateGroups host _ (inside (mem_group hbyModel))
    refine ⟨⟨files, records.length, (files.map (·.skippedLines)).sum, all, perRole, perModel⟩, ?_⟩
    simp only [aggregateLedgerRecords, bind_eq_ok, pure_eq_ok]
    exact ⟨all, hall, byRole, hbyRole, perRole, hperRole, byModel, hbyModel, perModel, hperModel,
      rfl⟩

end Reports

/-! ## Lines -/

/-- The checks of a record before its usage. -/
def Identified (fields : List (String × Json)) : Prop :=
  (finiteNumber? (Json.lookup "ts" fields)).isSome ∧
    (Json.asString? (Json.lookup "runId" fields)).isSome ∧
    (Json.asString? (Json.lookup "role" fields)).isSome ∧
    (Json.asString? (Json.lookup "model" fields)).isSome

/-- The checks of a usage before its cost. -/
def Counted (usage : List (String × Json)) : Prop :=
  ∀ name ∈ ["input", "output", "cacheRead", "cacheWrite", "totalTokens"],
    (finiteNumber? (Json.lookup name usage)).isSome

/-- The usage is not `null`, and its cost is not `null` either where it is looked at. -/
def WholeUsage (usage : Json) : Prop :=
  usage ≠ .null ∧ ∀ counts, usage = .obj counts → Counted counts →
    Json.lookup "cost" counts ≠ some .null

theorem succeeds_readCost {usage : List (String × Json)} {a b c d e : Rat} :
    Succeeds (readCost usage a b c d e) ↔ Json.lookup "cost" usage ≠ some .null := by
  rw [readCost]
  split
  · next cost => simp [cost]
  · next cost found =>
      rw [found]
      split
      · simp
      · split <;> simp
  · next null _ => simpa using null

theorem succeeds_readUsage (usage : Json) : Succeeds (readUsage usage) ↔ WholeUsage usage := by
  cases usage with
  | null => simp [readUsage, WholeUsage]
  | obj counts =>
      rw [readUsage]
      split
      · next input output cacheRead cacheWrite totalTokens =>
          rw [succeeds_readCost]
          simp [WholeUsage, Counted, input, output, cacheRead, cacheWrite, totalTokens]
      · next missing =>
          have uncounted : ¬ Counted counts := by
            intro counted
            simp only [Counted, List.forall_mem_cons, Option.isSome_iff_exists] at counted
            obtain ⟨⟨_, input⟩, ⟨_, output⟩, ⟨_, cacheRead⟩, ⟨_, cacheWrite⟩, ⟨_, total⟩, _⟩ := counted
            exact missing _ _ _ _ _ input output cacheRead cacheWrite total
          simp [WholeUsage, uncounted]
  | _ => simp [readUsage, WholeUsage]

section Files

variable {format : NumberFormat} {host : ReportHost} {maxRecordBytes : Nat} {line : List Char}
  {lines : List (List Char)}

/-- The reader throws nothing on the line, and the report nothing on its record. -/
def SoundRecord (fields : List (String × Json)) : Prop :=
  Identified fields → ∀ usage, Json.lookup "usage" fields = some usage →
    WholeUsage usage ∧ ((∃ counts, readUsage usage = .ok (some counts)) → Reportable fields)

/-- A line that is read without an error and counted just in case it is not blank. -/
def SoundLine (format : NumberFormat) (maxRecordBytes : Nat) (line : List Char) : Prop :=
  if isOversized maxRecordBytes line then (trimList line).isEmpty = false
  else (trimList line).isEmpty = false → ∀ fields,
    JsonText.parse format line = some (.obj fields) → SoundRecord fields

/-- What one line gives the report. -/
theorem parseLedgerLine_sound :
    (Succeeds (parseLedgerLine format line) ∧
        ∀ record, parseLedgerLine format line = .ok (some record) → Reportable record.fields) ↔
      ((trimList line).isEmpty = false → ∀ fields,
        JsonText.parse format line = some (.obj fields) → SoundRecord fields) := by
  rw [parseLedgerLine]
  split_ifs with blank
  · simp [blank]
  · rw [Bool.not_eq_true] at blank
    simp only [blank, forall_const]
    split
    · next fields read =>
        simp only [read, Option.some.injEq, Json.obj.injEq, forall_eq']
        split
        · next ts runId role model usage hts hrunId hrole hmodel husage =>
            have identified : Identified fields := by
              simp [Identified, hts, hrunId, hrole, hmodel]
            rw [SoundRecord, succeeds_map, succeeds_readUsage]
            constructor
            · rintro ⟨whole, reportable⟩ _ found same
              obtain rfl := Option.some.inj (husage.symm.trans same)
              refine ⟨whole, fun ⟨counts, counted⟩ => ?_⟩
              exact reportable ⟨fields, ts, runId, role, model, counts⟩ (by rw [counted]; rfl)
            · intro sound
              obtain ⟨whole, reportable⟩ := sound identified usage husage
              refine ⟨whole, fun record same => ?_⟩
              cases counted : readUsage usage with
              | error error => rw [counted] at same; cases same
              | ok found =>
                  rw [counted] at same
                  obtain ⟨counts, rfl, rfl⟩ := Option.map_eq_some_iff.mp (Except.ok.inj same)
                  exact reportable ⟨counts, counted⟩
        · next missing =>
            have unidentified (identified : Identified fields) :
                Json.lookup "usage" fields = none := by
              simp only [Identified, Option.isSome_iff_exists] at identified
              obtain ⟨⟨ts, hts⟩, ⟨runId, hrunId⟩, ⟨role, hrole⟩, ⟨model, hmodel⟩⟩ := identified
              by_contra some'
              obtain ⟨usage, husage⟩ := Option.ne_none_iff_exists'.mp some'
              exact missing ts runId role model usage hts hrunId hrole hmodel husage
            constructor
            · intro _ identified usage found
              rw [unidentified identified] at found
              cases found
            · intro _
              simp
    · next other =>
        have none (fields : List (String × Json)) :
            JsonText.parse format line ≠ some (.obj fields) := other fields
        simp [none]

/-! ## Files -/

/-- The record that the reader takes from a line. -/
def accepted (format : NumberFormat) (maxRecordBytes : Nat) (line : List Char) :
    Option LedgerEntry :=
  if isOversized maxRecordBytes line then none
  else match parseLedgerLine format line with
    | .ok found => found
    | .error _ => none

/-- The reader counts the line as skipped. -/
def isSkipped (format : NumberFormat) (maxRecordBytes : Nat) (line : List Char) : Bool :=
  isOversized maxRecordBytes line ||
    (accepted format maxRecordBytes line).isNone && !(trimList line).isEmpty

/-- The reader does not throw on the line. -/
def Unfailing (format : NumberFormat) (maxRecordBytes : Nat) (line : List Char) : Prop :=
  isOversized maxRecordBytes line = false → Succeeds (parseLedgerLine format line)

theorem readLedgerLine_eq (readable : Unfailing format maxRecordBytes line)
    (read : LedgerRecordsRead) : readLedgerLine format maxRecordBytes read line =
      .ok ⟨read.records ++ (accepted format maxRecordBytes line).toList,
        read.skippedLines + (isSkipped format maxRecordBytes line).toNat⟩ := by
  rw [readLedgerLine, isSkipped, accepted]
  cases oversized : isOversized maxRecordBytes line with
  | true => simp [LedgerRecordsRead.skip]
  | false =>
      obtain ⟨found, parsed⟩ := readable oversized
      simp only [parsed]
      cases found with
      | some record => simp [Except.map]
      | none => cases blank : (trimList line).isEmpty <;> simp [Except.map, LedgerRecordsRead.skip]

theorem succeeds_readLedgerLine (read : LedgerRecordsRead) :
    Succeeds (readLedgerLine format maxRecordBytes read line) ↔
      Unfailing format maxRecordBytes line := by
  rw [readLedgerLine, Unfailing]
  cases oversized : isOversized maxRecordBytes line with
  | true => simp
  | false => rw [if_neg (by simp), succeeds_map]; simp

theorem countP_cons_toNat (test : List Char → Bool) :
    (line :: lines).countP test = (test line).toNat + lines.countP test := by
  cases passes : test line <;> simp [passes, Nat.add_comm]

theorem foldlM_readLedgerLine (readable : ∀ line ∈ lines, Unfailing format maxRecordBytes line)
    (read : LedgerRecordsRead) : lines.foldlM (readLedgerLine format maxRecordBytes) read =
      .ok ⟨read.records ++ lines.filterMap (accepted format maxRecordBytes),
        read.skippedLines + lines.countP (isSkipped format maxRecordBytes)⟩ := by
  induction lines generalizing read with
  | nil => simp [pure, Except.pure]
  | cons line rest ih =>
      have first := readLedgerLine_eq (readable line List.mem_cons_self) read
      have later := ih fun other member => readable other (List.mem_cons_of_mem line member)
      have records : (accepted format maxRecordBytes line).toList ++
          rest.filterMap (accepted format maxRecordBytes) =
            (line :: rest).filterMap (accepted format maxRecordBytes) := by
        cases found : accepted format maxRecordBytes line <;> simp [found]
      calc
        (line :: rest).foldlM (readLedgerLine format maxRecordBytes) read
            = rest.foldlM (readLedgerLine format maxRecordBytes)
                ⟨read.records ++ (accepted format maxRecordBytes line).toList,
                  read.skippedLines + (isSkipped format maxRecordBytes line).toNat⟩ := by
          rw [List.foldlM_cons, first]
          rfl
        _ = _ := by rw [later, List.append_assoc, records, Nat.add_assoc,
          countP_cons_toNat]

/-- An accepted line is not blank and not too long. -/
theorem accepted_some {record : LedgerEntry}
    (found : accepted format maxRecordBytes line = some record) :
    isOversized maxRecordBytes line = false ∧ (trimList line).isEmpty = false ∧
      parseLedgerLine format line = .ok (some record) := by
  rw [accepted] at found
  split_ifs at found with oversized
  cases parsed : parseLedgerLine format line with
  | error error => rw [parsed] at found; cases found
  | ok result =>
      rw [parsed] at found
      obtain rfl : result = some record := found
      refine ⟨by simpa using oversized, ?_, rfl⟩
      rw [← Bool.not_eq_true]
      intro blank
      rw [parseLedgerLine, if_pos blank] at parsed
      cases parsed

/-- The lines that are neither accepted nor skipped are blank, and those that are both blank and
skipped are too long. -/
theorem counted_lines (lines : List (List Char)) :
    (lines.filterMap (accepted format maxRecordBytes)).length +
        lines.countP (isSkipped format maxRecordBytes) =
      lines.countP (fun line => !(trimList line).isEmpty) +
        lines.countP fun line => isOversized maxRecordBytes line && (trimList line).isEmpty := by
  induction lines with
  | nil => rfl
  | cons line rest ih =>
      have one : (accepted format maxRecordBytes line).toList.length +
          (isSkipped format maxRecordBytes line).toNat =
            (!(trimList line).isEmpty).toNat +
              (isOversized maxRecordBytes line && (trimList line).isEmpty).toNat := by
        cases found : accepted format maxRecordBytes line with
        | some record =>
            obtain ⟨oversized, blank, _⟩ := accepted_some found
            simp [isSkipped, found, oversized, blank]
        | none =>
            cases oversized : isOversized maxRecordBytes line <;>
              cases blank : (trimList line).isEmpty <;> simp [isSkipped, found, oversized, blank]
      have records : ((line :: rest).filterMap (accepted format maxRecordBytes)).length =
          (accepted format maxRecordBytes line).toList.length +
            (rest.filterMap (accepted format maxRecordBytes)).length := by
        cases found : accepted format maxRecordBytes line <;> simp [found, Nat.add_comm]
      rw [records, countP_cons_toNat, countP_cons_toNat, countP_cons_toNat]
      omega

theorem soundLine_iff : SoundLine format maxRecordBytes line ↔
    Unfailing format maxRecordBytes line ∧
      (isOversized maxRecordBytes line && (trimList line).isEmpty) = false ∧
      ∀ record, accepted format maxRecordBytes line = some record → Reportable record.fields := by
  rw [SoundLine, Unfailing, accepted]
  cases oversized : isOversized maxRecordBytes line with
  | true => simp
  | false =>
      rw [if_neg (by simp), if_neg (by simp), ← parseLedgerLine_sound]
      simp only [forall_const, Bool.false_and, true_and]
      refine and_congr_right fun ⟨found, parsed⟩ => ?_
      simp [parsed]

/-- A file is read without an error, its lines are counted and its records are reported, exactly
when all of its lines are sound. -/
theorem reads_iff (host : ReportHost) (maxRecordBytes : Nat) (file : List Nat) :
    (∃ read, readLedgerRecords host.format maxRecordBytes file = .ok read ∧
        read.records.length + read.skippedLines =
          ((Utf8.lossy file).splitOn '\n').countP (fun line => !(trimList line).isEmpty) ∧
        Succeeds (aggregateLedgerRecords host read.records [])) ↔
      ∀ line ∈ (Utf8.lossy file).splitOn '\n', SoundLine host.format maxRecordBytes line := by
  rw [readLedgerRecords]
  generalize (Utf8.lossy file).splitOn '\n' = lines
  have counts := @counted_lines host.format maxRecordBytes lines
  constructor
  · rintro ⟨read, done, counted, reported⟩
    have readable : ∀ line ∈ lines, Unfailing host.format maxRecordBytes line := by
      have steps := @succeeds_foldlM _ _ _ (readLedgerLine host.format maxRecordBytes) _ lines
        ⟨[], 0⟩ fun state line _ => succeeds_readLedgerLine state
      exact steps.mp ⟨read, done⟩
    obtain rfl := Except.ok.inj ((foldlM_readLedgerLine readable _).symm.trans done)
    rw [succeeds_aggregateLedgerRecords] at reported
    simp only [List.nil_append, Nat.zero_add] at counted reported
    have none : (lines.countP fun line => isOversized maxRecordBytes line &&
        (trimList line).isEmpty) = 0 := by omega
    intro line member
    rw [soundLine_iff]
    refine ⟨readable line member, ?_, fun record found => reported record ?_⟩
    · simpa using List.countP_eq_zero.mp none line member
    · exact List.mem_filterMap.mpr ⟨line, member, found⟩
  · intro sound
    have readable := fun line member => (soundLine_iff.mp (sound line member)).1
    refine ⟨_, foldlM_readLedgerLine readable _, ?_, ?_⟩
    · have none : (lines.countP fun line => isOversized maxRecordBytes line &&
          (trimList line).isEmpty) = 0 := by
        rw [List.countP_eq_zero]
        intro line member
        simpa using (soundLine_iff.mp (sound line member)).2.1
      simp only [List.nil_append, Nat.zero_add]
      omega
    · rw [succeeds_aggregateLedgerRecords]
      simp only [List.nil_append]
      intro record member
      obtain ⟨line, among, found⟩ := List.mem_filterMap.mp member
      exact (soundLine_iff.mp (sound line among)).2.2 record found

end Files

end AdCoder.Ledger
