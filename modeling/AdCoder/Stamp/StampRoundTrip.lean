import AdCoder.Foundation.JsonLaws
import AdCoder.Foundation.Lists
import AdCoder.Stamp.ReviewStamp

/-!
# Stamps that are read back from their line

The line of a stamp is read back field by field, except for its end: the reader
trims the line, so that white space at the end of the last value is lost, and it
refuses a value without characters, which an empty list of covered paths has.
-/

namespace AdCoder.Stamp

open Foundation Regex

/-! ## What is written -/

/-- A text without the line ends and the blank that the writer refuses. -/
def OnLine (value : String) : Prop := ∀ x ∈ value.toList, x ≠ '\r' ∧ x ≠ '\n' ∧ x ≠ ' '

/-- A field that the writer accepts. -/
def Spelled (field : String × String) : Prop :=
  OnLine field.2 ∧ (field.1 = "reviewedAt" → iso8601.test field.2 = true)

theorem singleLine_eq_ok {key value result : String} :
    singleLine key value = .ok result ↔ Spelled (key, value) ∧ result = value := by
  have plain : (value.toList.any fun x => x == '\r' || x == '\n' || x == ' ') = false ↔
      OnLine value := by
    simp only [List.any_eq_false, Bool.or_eq_true, beq_iff_eq, not_or, and_assoc, OnLine, ne_eq]
  rw [singleLine]
  split_ifs with split date
  · rw [← Bool.not_eq_false, plain] at split
    simp [Spelled, split]
  · simp [Spelled, date.1, date.2]
  · rw [Bool.not_eq_true, plain] at split
    rw [not_and, Bool.not_eq_false] at date
    simp only [Spelled, split, true_and, Except.ok.injEq, eq_comm (a := value)]
    exact ⟨fun same => ⟨date, same⟩, And.right⟩

theorem renderReviewStamp_eq_ok {stamp : ReviewStamp} {line : String} :
    renderReviewStamp stamp = .ok line ↔ (∀ field ∈ stampFields stamp, Spelled field) ∧
      line = String.ofList (lineText (stampFields stamp) ++ ['\n']) := by
  have step {field result : String × String} :
      (singleLine field.1 field.2).map (fun value => (field.1, value)) = .ok result ↔
        Spelled field ∧ result = field := by
    rw [map_eq_ok]
    constructor
    · rintro ⟨value, written, rfl⟩
      obtain ⟨spelled, rfl⟩ := singleLine_eq_ok.mp written
      exact ⟨spelled, rfl⟩
    · rintro ⟨spelled, rfl⟩
      exact ⟨result.2, singleLine_eq_ok.mpr ⟨spelled, rfl⟩, rfl⟩
  rw [renderReviewStamp, bind_eq_ok]
  constructor
  · rintro ⟨fields, written, same⟩
    obtain ⟨spelled, rfl⟩ := (mapM_eq_ok_self step).mp written
    exact ⟨spelled, (pure_eq_ok.mp same).symm⟩
  · rintro ⟨spelled, rfl⟩
    exact ⟨_, (mapM_eq_ok_self step).mpr ⟨spelled, rfl⟩, rfl⟩

/-! ## Names -/

/-- A name that is cut at no separator and that no plain object has of its own. -/
structure NameText (key : String) : Prop where
  filled : key ≠ ""
  plain : ∀ x ∈ key.toList, isAlnum x = true
  own : key ∉ inheritedNames

theorem isAlnum_ne {x y : Char} (plain : isAlnum x = true) (other : isAlnum y = false) : x ≠ y := by
  rintro rfl
  rw [other] at plain
  cases plain

/-- The names that every stamp has, and the one that covered paths stand under. -/
def fixedNames : List String := neededFields ++ ["coverage"]

theorem nameText_fixed {key : String} (member : key ∈ fixedNames) : NameText key := by
  have all : fixedNames.all fun name =>
      name != "" && name.toList.all isAlnum && !inheritedNames.contains name := by
    decide +kernel
  have found := List.all_eq_true.mp all key member
  simp only [Bool.and_eq_true, bne_iff_ne, List.all_eq_true, Bool.not_eq_true',
    List.contains_eq_mem, decide_eq_false_iff_not] at found
  exact ⟨found.1.1, found.1.2, found.2⟩

theorem runIdKey_toList (index : Nat) :
    (runIdKey index).toList = 'r' :: 'u' :: 'n' :: 'I' :: 'd' :: Nat.toDigits 10 index := by
  rw [runIdKey, String.toList_append, Nat.toString_eq_repr, Nat.toList_repr]
  rfl

theorem runIdKey_injective : Function.Injective runIdKey := by
  intro index other same
  have digits : Nat.toDigits 10 index = Nat.toDigits 10 other := by
    have texts := congrArg String.toList same
    rw [runIdKey_toList, runIdKey_toList] at texts
    simpa using texts
  rw [← Nat.ofDigitChars_ten_toDigits (n := index), digits, Nat.ofDigitChars_ten_toDigits]

/-- Neither the fixed names nor the inherited ones start like the name of a run id. -/
theorem runIdKey_notMem (index : Nat) : runIdKey index ∉ fixedNames ++ inheritedNames := by
  intro member
  have none : (fixedNames ++ inheritedNames).all fun name => !(['r', 'u'].isPrefixOf name.toList) := by
    decide +kernel
  have found := List.all_eq_true.mp none _ member
  rw [runIdKey_toList] at found
  cases found

theorem nameText_runIdKey (index : Nat) : NameText (runIdKey index) where
  filled := by
    intro empty
    have text := runIdKey_toList index
    rw [empty] at text
    cases text
  plain := by
    intro x member
    have digit {y : Char} (among : y ∈ Nat.toDigits 10 index) : isAlnum y = true := by
      have found := Nat.isDigit_of_mem_toDigits (by decide) (by decide) among
      simp only [Char.isDigit, ge_iff_le, Bool.and_eq_true, decide_eq_true_eq] at found
      simpa [isAlnum, isDigit, Char.le_def] using .inr found
    rw [runIdKey_toList] at member
    simp only [List.mem_cons] at member
    obtain rfl | rfl | rfl | rfl | rfl | member := member
    all_goals first | rfl | exact digit member
  own member := runIdKey_notMem index (List.mem_append_right _ member)

/-! ## Tokens -/

theorem readToken_tokenText {read result : List (String × String)} {field : String × String}
    (name : NameText field.1) :
    readToken read (tokenText field) = .ok result ↔
      field.2 ≠ "" ∧ field.1 ∉ read.map (·.1) ∧ result = read ++ [field] := by
  obtain ⟨key, value⟩ := field
  have bare : ∀ x ∈ key.toList, (x ≠ ':') = true := fun x member => by
    simpa using isAlnum_ne (name.plain x member) (by decide)
  have key_read : (tokenText (key, value)).takeWhile (· ≠ ':') = key.toList := by
    rw [tokenText, List.takeWhile_append_of_pos]
    · simp
    · simpa using bare
  have value_read : (tokenText (key, value)).drop (key.toList.length + 1) = value.toList := by
    rw [tokenText, ← List.drop_drop]
    simp
  have found : (tokenText (key, value)).contains ':' = true := by simp [tokenText]
  rw [readToken]
  simp only [found, if_true, key_read, value_read, String.ofList_toList]
  have filled : ¬ key.toList = [] := fun empty => name.filled (String.toList_eq_nil_iff.mp empty)
  split_ifs with bad
  · simp only [filled, name.own, String.toList_eq_nil_iff, false_or, or_false] at bad
    simp only [false_iff]
    rintro ⟨some, fresh, -⟩
    exact bad.elim some fresh
  · simp only [String.toList_eq_nil_iff, not_or] at bad
    simp [bad.2.1, bad.2.2.1, eq_comm]

/-- Tokens under different names are read one after the other, unless one has no value. -/
theorem foldlM_readToken {fields read result : List (String × String)}
    (names : ∀ field ∈ fields, NameText field.1) (distinct : ((read ++ fields).map (·.1)).Nodup) :
    (fields.map tokenText).foldlM readToken read = .ok result ↔
      (∀ field ∈ fields, field.2 ≠ "") ∧ result = read ++ fields := by
  induction fields generalizing read with
  | nil =>
      rw [List.map_nil, List.foldlM_nil, pure_eq_ok, List.append_nil]
      exact ⟨fun same => ⟨by simp, same.symm⟩, fun found => found.2.symm⟩
  | cons field rest ih =>
      obtain ⟨name, names⟩ := List.forall_mem_cons.mp names
      have fresh : field.1 ∉ read.map (·.1) := by
        rw [List.map_append, List.map_cons, List.nodup_append] at distinct
        exact fun member => distinct.2.2 _ member _ List.mem_cons_self rfl
      have later : ((read ++ [field] ++ rest).map (·.1)).Nodup := by
        rwa [List.append_assoc, List.singleton_append]
      rw [List.map_cons, List.foldlM_cons, bind_eq_ok, List.forall_mem_cons]
      constructor
      · rintro ⟨middle, first, more⟩
        obtain ⟨some, -, rfl⟩ := (readToken_tokenText name).mp first
        obtain ⟨filled, rfl⟩ := (ih names later).mp more
        exact ⟨⟨some, filled⟩, by rw [List.append_assoc, List.singleton_append]⟩
      · rintro ⟨⟨some, filled⟩, rfl⟩
        refine ⟨read ++ [field], (readToken_tokenText name).mpr ⟨some, fresh, rfl⟩, ?_⟩
        exact (ih names later).mpr ⟨filled, by rw [List.append_assoc, List.singleton_append]⟩

theorem blank_notMem_tokenText {field : String × String} (name : NameText field.1)
    (line : OnLine field.2) : ' ' ∉ tokenText field := by
  rw [tokenText, List.mem_append, List.mem_cons, not_or, not_or]
  exact ⟨fun member => isAlnum_ne (name.plain _ member) (by decide) rfl, by decide,
    fun member => (line _ member).2.2 rfl⟩

/-- The tokens of a line are its fields when all of them have a value. -/
theorem readTokens_lineText {fields result : List (String × String)} (some : fields ≠ [])
    (names : ∀ field ∈ fields, NameText field.1) (line : ∀ field ∈ fields, OnLine field.2)
    (distinct : (fields.map (·.1)).Nodup) :
    readTokens (lineText fields) = .ok result ↔
      (∀ field ∈ fields, field.2 ≠ "") ∧ result = fields := by
  have cut : ([' '].intercalate (fields.map tokenText)).splitOn ' ' = fields.map tokenText := by
    apply List.splitOn_intercalate
    · rintro _ token
      obtain ⟨field, member, rfl⟩ := List.mem_map.mp token
      exact blank_notMem_tokenText (names field member) (line field member)
    · simpa using some
  have version : reviewStampVersion.toList <+: lineText fields := List.prefix_append _ _
  have rest : (lineText fields).drop reviewStampVersion.toList.length =
      ' ' :: [' '].intercalate (fields.map tokenText) := List.drop_left
  have text : lineText fields ≠ [] := by simp [lineText]
  rw [readTokens, if_neg text, if_neg (not_not_intro version), rest]
  simp only [cut]
  exact @foldlM_readToken fields [] result names distinct

/-! ## The fields of a stamp -/

theorem mem_runIdFields {first : Nat} {runIds : List String} {field : String × String} :
    field ∈ runIdFields first runIds ↔
      ∃ index, ∃ runId, runIds[index]? = some runId ∧ field = (runIdKey (first + index), runId) := by
  induction runIds generalizing first with
  | nil => simp [runIdFields]
  | cons runId rest ih =>
      rw [runIdFields, List.mem_cons, ih]
      constructor
      · rintro (rfl | ⟨index, found, at_index, rfl⟩)
        · exact ⟨0, runId, rfl, rfl⟩
        · exact ⟨index + 1, found, by simpa using at_index, by rw [Nat.add_right_comm, Nat.add_assoc]⟩
      · rintro ⟨index, found, at_index, rfl⟩
        cases index with
        | zero =>
            obtain rfl := Option.some.inj at_index
            exact .inl rfl
        | succ index =>
            refine .inr ⟨index, found, by simpa using at_index, ?_⟩
            rw [Nat.add_right_comm, Nat.add_assoc]

theorem runIdFields_concat (first : Nat) (runIds : List String) (last : String) :
    runIdFields first (runIds ++ [last]) =
      runIdFields first runIds ++ [(runIdKey (first + runIds.length), last)] := by
  induction runIds generalizing first with
  | nil => rfl
  | cons runId rest ih =>
      rw [List.cons_append, runIdFields, ih, runIdFields, List.length_cons, List.cons_append,
        Nat.add_assoc, Nat.add_comm 1]

theorem length_runIdFields (first : Nat) (runIds : List String) :
    (runIdFields first runIds).length = runIds.length := by
  induction runIds generalizing first with
  | nil => rfl
  | cons runId rest ih => rw [runIdFields, List.length_cons, List.length_cons, ih]

theorem nodup_runIdFields (first : Nat) (runIds : List String) :
    ((runIdFields first runIds).map (·.1)).Nodup := by
  induction runIds generalizing first with
  | nil => exact List.nodup_nil
  | cons runId rest ih =>
      rw [runIdFields, List.map_cons, List.nodup_cons]
      refine ⟨fun member => ?_, ih (first + 1)⟩
      obtain ⟨field, among, same⟩ := List.mem_map.mp member
      obtain ⟨index, _, _, rfl⟩ := mem_runIdFields.mp among
      have := runIdKey_injective same
      omega

/-- The six fields that every stamp has. -/
def neededPairs (stamp : ReviewStamp) : List (String × String) :=
  [("digest", stamp.treeDigest), ("base", stamp.base), ("verdict", stamp.verdict.text),
    ("reviewer", stamp.reviewer), ("reviewedAt", stamp.reviewedAt),
    ("findings", stamp.findingsRef)]

/-- The field of the covered paths, if there are any. -/
def coveragePairs (stamp : ReviewStamp) : List (String × String) :=
  (stamp.coverage.map fun coverage => ("coverage", ",".intercalate coverage)).toList

theorem stampFields_eq (stamp : ReviewStamp) :
    stampFields stamp = neededPairs stamp ++ runIdFields 1 stamp.runIds ++ coveragePairs stamp :=
  rfl

theorem mem_stampFields {stamp : ReviewStamp} {field : String × String} :
    field ∈ stampFields stamp ↔ field ∈ neededPairs stamp ∨
      field ∈ runIdFields 1 stamp.runIds ∨ field ∈ coveragePairs stamp := by
  rw [stampFields_eq, List.mem_append, List.mem_append, or_assoc]

theorem neededPairs_names (stamp : ReviewStamp) :
    (neededPairs stamp).map (·.1) = neededFields := rfl

theorem mem_coveragePairs {stamp : ReviewStamp} {field : String × String} :
    field ∈ coveragePairs stamp ↔
      ∃ patterns, stamp.coverage = some patterns ∧ field = ("coverage", ",".intercalate patterns) := by
  simp [coveragePairs, eq_comm]

theorem nameText_stampFields {stamp : ReviewStamp} {field : String × String}
    (member : field ∈ stampFields stamp) : NameText field.1 := by
  obtain needed | runId | coverage := mem_stampFields.mp member
  · apply nameText_fixed
    exact List.mem_append_left _ (neededPairs_names stamp ▸ List.mem_map_of_mem needed)
  · obtain ⟨index, _, _, rfl⟩ := mem_runIdFields.mp runId
    exact nameText_runIdKey _
  · obtain ⟨_, _, rfl⟩ := mem_coveragePairs.mp coverage
    exact nameText_fixed (List.mem_append_right _ List.mem_cons_self)

theorem nodup_stampFields (stamp : ReviewStamp) : ((stampFields stamp).map (·.1)).Nodup := by
  have needed : fixedNames.Nodup := by decide +kernel
  obtain ⟨first, -, apart⟩ := List.nodup_append.mp needed
  have coverage {name : String} (member : name ∈ (coveragePairs stamp).map (·.1)) :
      name = "coverage" := by
    obtain ⟨field, among, rfl⟩ := List.mem_map.mp member
    obtain ⟨_, _, rfl⟩ := mem_coveragePairs.mp among
    rfl
  have runId {name : String} (member : name ∈ (runIdFields 1 stamp.runIds).map (·.1)) :
      name ∉ fixedNames := by
    obtain ⟨field, among, rfl⟩ := List.mem_map.mp member
    obtain ⟨index, _, _, rfl⟩ := mem_runIdFields.mp among
    exact fun fixed => runIdKey_notMem _ (List.mem_append_left _ fixed)
  rw [stampFields_eq, List.map_append, List.map_append, neededPairs_names, List.nodup_append,
    List.nodup_append]
  refine ⟨⟨first, nodup_runIdFields 1 stamp.runIds, ?_⟩, ?_, ?_⟩
  · rintro name member _ later rfl
    exact runId later (List.mem_append_left _ member)
  · cases shape : stamp.coverage <;> simp [coveragePairs, shape]
  · rintro name member _ later rfl
    obtain rfl := coverage later
    obtain member | member := List.mem_append.mp member
    · exact apart _ member _ List.mem_cons_self rfl
    · exact runId member (List.mem_append_right _ List.mem_cons_self)

/-! ## The stamp of the fields -/

theorem lookup_stampFields {stamp : ReviewStamp} {key value : String}
    (member : (key, value) ∈ stampFields stamp) : (stampFields stamp).lookup key = some value :=
  lookup_of_mem (nodup_stampFields stamp) member

theorem lookup_runIdKey (stamp : ReviewStamp) (index : Nat) :
    (stampFields stamp).lookup (runIdKey (1 + index)) = stamp.runIds[index]? := by
  cases found : stamp.runIds[index]? with
  | some runId =>
      apply lookup_stampFields
      exact mem_stampFields.mpr (.inr (.inl (mem_runIdFields.mpr ⟨index, runId, found, rfl⟩)))
  | none =>
      rw [List.lookup_eq_none_iff]
      rintro field member
      rw [bne_iff_ne]
      intro same
      have notFixed := fun fixed => runIdKey_notMem (1 + index) (List.mem_append_left _ fixed)
      obtain needed | runId | coverage := mem_stampFields.mp member
      · apply notFixed
        rw [same]
        exact List.mem_append_left _ (neededPairs_names stamp ▸ List.mem_map_of_mem needed)
      · obtain ⟨other, _, at_other, rfl⟩ := mem_runIdFields.mp runId
        obtain rfl : index = other := by
          have := runIdKey_injective same
          omega
        rw [found] at at_other
        cases at_other
      · obtain ⟨_, _, rfl⟩ := mem_coveragePairs.mp coverage
        exact notFixed (same ▸ List.mem_append_right _ List.mem_cons_self)

theorem lookup_coverage_none {stamp : ReviewStamp} (none : stamp.coverage = none) :
    (stampFields stamp).lookup "coverage" = .none := by
  rw [List.lookup_eq_none_iff]
  rintro field member
  rw [bne_iff_ne]
  intro same
  obtain needed | runId | coverage := mem_stampFields.mp member
  · have among : "coverage" ∈ neededFields := by
      rw [same, ← neededPairs_names stamp]
      exact List.mem_map_of_mem needed
    exact absurd among (by decide +kernel)
  · obtain ⟨index, _, _, rfl⟩ := mem_runIdFields.mp runId
    apply runIdKey_notMem (1 + index)
    rw [← show "coverage" = runIdKey (1 + index) from same]
    exact List.mem_append_left _ (List.mem_append_right _ List.mem_cons_self)
  · obtain ⟨_, found, -⟩ := mem_coveragePairs.mp coverage
    rw [none] at found
    cases found

/-- What the reader asks of the values that it looks into. -/
structure Legible (stamp : ReviewStamp) : Prop where
  digest : digestPattern.test stamp.treeDigest = true
  reviewedAt : iso8601.test stamp.reviewedAt = true
  runIds : ∀ runId ∈ stamp.runIds, runIdPattern.test runId = true
  coverage : ∀ patterns, stamp.coverage = some patterns →
    ∀ pattern ∈ patterns, PatternText pattern.toList

/-- The run ids from an index on are read until a name is missing. -/
theorem readRunIds_eq {fields : List (String × String)} {runIds : List String} {left first : Nat}
    (found : ∀ index, fields.lookup (runIdKey (first + index)) = runIds[index]?)
    (enough : runIds.length ≤ left) (accepted : ∀ runId ∈ runIds, runIdPattern.test runId = true) :
    readRunIds fields left first = .ok runIds := by
  induction runIds generalizing left first with
  | nil =>
      cases left with
      | zero => rfl
      | succ left =>
          have none := found 0
          rw [Nat.add_zero, List.getElem?_nil] at none
          rw [readRunIds, none]
  | cons runId rest ih =>
      obtain ⟨left, rfl⟩ := Nat.exists_eq_succ_of_ne_zero (Nat.ne_zero_of_lt enough)
      have head := found 0
      rw [Nat.add_zero, List.getElem?_cons_zero] at head
      have tail (index : Nat) : fields.lookup (runIdKey (first + 1 + index)) = rest[index]? := by
        rw [Nat.add_assoc, Nat.add_comm 1, found, List.getElem?_cons_succ]
      rw [readRunIds, head]
      simp only [accepted runId List.mem_cons_self, if_true]
      rw [ih tail (Nat.le_of_succ_le_succ enough)
        fun other member => accepted other (List.mem_cons_of_mem _ member)]
      rfl

theorem intercalate_toList (patterns : List String) :
    (",".intercalate patterns).toList = [','].intercalate (patterns.map String.toList) := by
  rw [String.toList_intercalate]
  rfl

theorem readCoverage_intercalate {patterns : List String} (some : patterns ≠ [])
    (texts : ∀ pattern ∈ patterns, PatternText pattern.toList) :
    readCoverage (",".intercalate patterns) = .ok patterns := by
  have cut : (",".intercalate patterns).toList.splitOn ',' = patterns.map String.toList := by
    rw [intercalate_toList, List.splitOn_intercalate]
    · rintro _ piece
      obtain ⟨pattern, member, rfl⟩ := List.mem_map.mp piece
      exact fun comma => ((texts pattern member).2 _ comma).2 rfl
    · simpa using some
  have accepted : ((patterns.map String.toList).any fun pattern =>
      pattern.isEmpty || pattern.any isSpace) = false := by
    rw [List.any_eq_false]
    rintro _ piece
    obtain ⟨pattern, member, rfl⟩ := List.mem_map.mp piece
    obtain ⟨filled, plain⟩ := texts pattern member
    simp only [Bool.or_eq_true, List.isEmpty_iff, filled, false_or, List.any_eq_true, not_exists,
      not_and, Bool.not_eq_true]
    exact fun x among => (plain x among).1
  rw [readCoverage, cut, accepted]
  simp

/-- The stamp is read back from its fields. -/
theorem stampOf_stampFields {stamp : ReviewStamp} (legible : Legible stamp)
    (covered : stamp.coverage ≠ some []) : stampOf (stampFields stamp) = .ok stamp := by
  have needed {field : String × String} (member : field ∈ neededPairs stamp) :
      neededField (stampFields stamp) field.1 = .ok field.2 := by
    rw [neededField, lookup_stampFields (mem_stampFields.mpr (.inl member))]
  have digest := needed (.head _)
  have base := needed (.tail _ (.head _))
  have verdict := needed (.tail _ (.tail _ (.head _)))
  have reviewer := needed (.tail _ (.tail _ (.tail _ (.head _))))
  have reviewedAt := needed (.tail _ (.tail _ (.tail _ (.tail _ (.head _)))))
  have findings := needed (.tail _ (.tail _ (.tail _ (.tail _ (.tail _ (.head _))))))
  have read_verdict : readVerdict stamp.verdict.text = .ok stamp.verdict := by
    cases stamp.verdict <;> rfl
  have runIds : readRunIds (stampFields stamp) (stampFields stamp).length 1 = .ok stamp.runIds := by
    apply readRunIds_eq (lookup_runIdKey stamp) _ legible.runIds
    rw [stampFields_eq, List.length_append, List.length_append, length_runIdFields]
    omega
  have ok_bind {α β : Type} (a : α) (f : α → Except String β) : (Except.ok a >>= f) = f a := rfl
  simp only [] at digest base verdict reviewer reviewedAt findings
  rw [stampOf]
  simp only [neededFields, List.mapM_cons, List.mapM_nil, digest, base, verdict, reviewer,
    reviewedAt, findings, read_verdict, runIds, legible.digest, legible.reviewedAt, require_true,
    ok_bind]
  cases shape : stamp.coverage with
  | none =>
      rw [lookup_coverage_none shape]
      exact congrArg (fun coverage => (.ok { stamp with coverage } : Except String ReviewStamp)) shape.symm
  | some patterns =>
      have field := mem_coveragePairs.mpr ⟨patterns, shape, rfl⟩
      have some : patterns ≠ [] := by
        rintro rfl
        exact covered shape
      rw [lookup_stampFields (mem_stampFields.mpr (.inr (.inr field)))]
      simp only [readCoverage_intercalate some (legible.coverage patterns shape)]
      exact congrArg (fun coverage => (.ok { stamp with coverage } : Except String ReviewStamp)) shape.symm

/-! ## The end of the line -/

/-- The stamp without the white space that the reader trims from its findings. -/
def settled (stamp : ReviewStamp) : ReviewStamp :=
  if stamp.runIds = [] ∧ stamp.coverage = none then
    { stamp with findingsRef := String.ofList (trimEnd stamp.findingsRef.toList) }
  else stamp

theorem isSpace_runId {runId : String} (accepted : runIdPattern.test runId = true) :
    ∀ x ∈ runId.toList, isSpace x = false := by
  intro x member
  have within : (Regex.rep true 1 (some 64) (.one fun x =>
      isAlnum x || x == '_' || x == '-')).Within fun x => isAlnum x || x == '_' || x == '-' :=
    fun _ accepts => accepts
  have char := all_of_test_whole within accepted x member
  simp only [Bool.or_eq_true, beq_iff_eq, or_assoc] at char
  obtain alnum | rfl | rfl := char
  · exact isSpace_of_isAlnum alnum
  · rfl
  · rfl

theorem isSpace_intercalate {patterns : List String}
    (texts : ∀ pattern ∈ patterns, PatternText pattern.toList) :
    ∀ x ∈ (",".intercalate patterns).toList, isSpace x = false := by
  intro x member
  rw [intercalate_toList] at member
  obtain rfl | ⟨_, piece, inside⟩ := mem_intercalate member
  · rfl
  · obtain ⟨pattern, among, rfl⟩ := List.mem_map.mp piece
    exact ((texts pattern among).2 x inside).1

theorem trimEnd_solid {value : String} (solid : ∀ x ∈ value.toList, isSpace x = false) :
    String.ofList (trimEnd value.toList) = value := by
  rw [trimEnd_eq_self.mpr fun x last => solid x (List.mem_of_getLast? last), String.ofList_toList]

/-- The reader trims the value of the last field. -/
theorem exists_last_field {stamp : ReviewStamp} (legible : Legible stamp) :
    ∃ front key value, stampFields stamp = front ++ [(key, value)] ∧
      stampFields (settled stamp) = front ++ [(key, String.ofList (trimEnd value.toList))] := by
  cases coverage : stamp.coverage with
  | some patterns =>
      have same : settled stamp = stamp := by simp [settled, coverage]
      have shape : stampFields stamp = neededPairs stamp ++ runIdFields 1 stamp.runIds ++
          [("coverage", ",".intercalate patterns)] := by
        simp [stampFields_eq, coveragePairs, coverage]
      refine ⟨_, _, _, shape, ?_⟩
      rw [same, trimEnd_solid (isSpace_intercalate (legible.coverage patterns coverage)), shape]
  | none =>
      have bare : coveragePairs stamp = [] := by simp [coveragePairs, coverage]
      obtain runIds | ⟨front, last, runIds⟩ := List.eq_nil_or_concat' stamp.runIds
      · refine ⟨(neededPairs stamp).dropLast, "findings", stamp.findingsRef, ?_, ?_⟩
        · rw [stampFields_eq, bare, runIds]
          rfl
        · have same : settled stamp =
              { stamp with findingsRef := String.ofList (trimEnd stamp.findingsRef.toList) } :=
            if_pos ⟨runIds, coverage⟩
          rw [same, stampFields_eq]
          simp [neededPairs, coveragePairs, coverage, runIds, runIdFields]
      · have same : settled stamp = stamp := by simp [settled, runIds]
        have accepted := legible.runIds last (by simp [runIds])
        have shape : stampFields stamp = neededPairs stamp ++ runIdFields 1 front ++
            [(runIdKey (1 + front.length), last)] := by
          rw [stampFields_eq, bare, runIds, runIdFields_concat, List.append_nil, List.append_assoc]
        refine ⟨_, _, _, shape, ?_⟩
        rw [same, trimEnd_solid (isSpace_runId accepted), shape]

theorem lineText_concat (front : List (String × String)) (key : String) :
    ∃ start, ∀ value : String,
      lineText (front ++ [(key, value)]) = 'r' :: start ++ ':' :: value.toList := by
  refine ⟨reviewStampVersion.toList.tail ++
    ' ' :: ((front.map tokenText).flatMap (· ++ [' ']) ++ key.toList), fun value => ?_⟩
  have version : reviewStampVersion.toList = 'r' :: reviewStampVersion.toList.tail := by
    decide +kernel
  rw [lineText, List.map_append, List.map_singleton, intercalate_concat, version]
  simp [tokenText]

/-- The reader sees the line of the settled stamp. -/
theorem trimList_lineText {stamp : ReviewStamp} (legible : Legible stamp) {blank : List Char}
    (h : ∀ x ∈ blank, isSpace x = true) :
    trimList (lineText (stampFields stamp) ++ blank) = lineText (stampFields (settled stamp)) := by
  obtain ⟨front, key, value, whole, trimmed⟩ := exists_last_field legible
  obtain ⟨start, line⟩ := lineText_concat front key
  rw [whole, trimmed, line, line, String.toList_ofList,
    trimList_line (by decide +kernel) (by decide +kernel) h]

/-! ## One line -/

/-- A stamp with a digest, run ids of the accepted form, covered paths that are accepted under
some declaration or none, and values in the free fields, that is written. -/
structure Admitted (stamp : ReviewStamp) : Prop where
  digest : digestPattern.test stamp.treeDigest = true
  runIds : ∀ runId ∈ stamp.runIds, runIdPattern.test runId = true
  coverage : ∀ patterns, stamp.coverage = some patterns →
    ∃ key, coverageValidationError (patterns.map .str) key = none
  base : stamp.base ≠ ""
  reviewer : stamp.reviewer ≠ ""
  findings : stamp.findingsRef ≠ ""
  rendered : ∃ line, renderReviewStamp stamp = .ok line

/-- A stamp whose line ends in a value that the reader leaves as it is. -/
def Closed (stamp : ReviewStamp) : Prop :=
  stamp.coverage ≠ some [] ∧ (stamp.runIds = [] → stamp.coverage = none →
    ∀ x ∈ stamp.findingsRef.toList.getLast?, isSpace x = false)

section Line

variable {stamp : ReviewStamp}

theorem Admitted.spelled (admitted : Admitted stamp) : ∀ field ∈ stampFields stamp, Spelled field :=
  admitted.rendered.elim fun _ written => (renderReviewStamp_eq_ok.mp written).1

theorem Admitted.render (admitted : Admitted stamp) :
    renderReviewStamp stamp = .ok (String.ofList (lineText (stampFields stamp) ++ ['\n'])) :=
  renderReviewStamp_eq_ok.mpr ⟨admitted.spelled, rfl⟩

theorem Admitted.legible (admitted : Admitted stamp) : Legible stamp where
  digest := admitted.digest
  reviewedAt :=
    (admitted.spelled _ (mem_stampFields.mpr (.inl (.tail _ (.tail _ (.tail _ (.tail _
      (.head _)))))))).2 rfl
  runIds := admitted.runIds
  coverage patterns covered _ member :=
    (admitted.coverage patterns covered).elim fun _ accepted =>
      patternText_of_accepted accepted member

theorem settled_cases (stamp : ReviewStamp) : settled stamp = stamp ∨
    settled stamp = { stamp with findingsRef := String.ofList (trimEnd stamp.findingsRef.toList) } := by
  rw [settled]
  split_ifs
  · exact .inr rfl
  · exact .inl rfl

theorem Legible.settled (legible : Legible stamp) : Legible (settled stamp) := by
  obtain same | same := settled_cases stamp
  · rwa [same]
  · rw [same]
    exact ⟨legible.digest, legible.reviewedAt, legible.runIds, legible.coverage⟩

theorem settled_coverage (stamp : ReviewStamp) : (settled stamp).coverage = stamp.coverage := by
  obtain same | same := settled_cases stamp
  · rw [same]
  · rw [same]

theorem onLine_settled (line : ∀ field ∈ stampFields stamp, OnLine field.2) :
    ∀ field ∈ stampFields (settled stamp), OnLine field.2 := by
  obtain same | same := settled_cases stamp
  · rwa [same]
  · intro field member
    have findings := line _ (mem_stampFields.mpr (.inl (List.mem_of_getLast? rfl)))
    rw [same, mem_stampFields] at member
    obtain needed | later := member
    · by_cases last : field = ("findings", String.ofList (trimEnd stamp.findingsRef.toList))
      · rw [last]
        intro x among
        rw [String.toList_ofList] at among
        exact findings x (mem_of_mem_trimEnd among)
      · refine line field (mem_stampFields.mpr (.inl ?_))
        simp only [neededPairs, List.mem_cons, last, List.not_mem_nil, or_false] at needed ⊢
        tauto
    · exact line field (mem_stampFields.mpr (.inr later))

theorem settled_eq_self (stamp : ReviewStamp) : settled stamp = stamp ↔
    (stamp.runIds = [] → stamp.coverage = none →
      ∀ x ∈ stamp.findingsRef.toList.getLast?, isSpace x = false) := by
  rw [settled]
  split_ifs with bare
  · have trimmed : { stamp with findingsRef := String.ofList (trimEnd stamp.findingsRef.toList) } =
        stamp ↔ trimEnd stamp.findingsRef.toList = stamp.findingsRef.toList := by
      constructor
      · intro same
        have findings := congrArg (fun stamp => stamp.findingsRef.toList) same
        rwa [String.toList_ofList] at findings
      · intro same
        rw [same, String.ofList_toList]
    rw [trimmed, trimEnd_eq_self]
    exact ⟨fun solid _ _ => solid, fun solid => solid bare.1 bare.2⟩
  · exact ⟨fun _ runIds coverage => absurd ⟨runIds, coverage⟩ bare, fun _ => rfl⟩

/-- Every field of a closed stamp has a value. -/
theorem Admitted.filled (admitted : Admitted stamp) (covered : stamp.coverage ≠ some []) :
    ∀ field ∈ stampFields stamp, field.2 ≠ "" := by
  have tested {r : Regex} {value : String} (none : r.test "" = false)
      (found : r.test value = true) : value ≠ "" := by
    rintro rfl
    rw [none] at found
    cases found
  intro field member
  obtain needed | runId | coverage := mem_stampFields.mp member
  · simp only [neededPairs, List.mem_cons, List.not_mem_nil, or_false] at needed
    obtain rfl | rfl | rfl | rfl | rfl | rfl := needed
    · exact tested (by decide +kernel) admitted.digest
    · exact admitted.base
    · cases stamp.verdict <;> decide +kernel
    · exact admitted.reviewer
    · exact tested (by decide +kernel) admitted.legible.reviewedAt
    · exact admitted.findings
  · obtain ⟨index, value, found, rfl⟩ := mem_runIdFields.mp runId
    exact tested (by decide +kernel) (admitted.runIds value (List.mem_of_getElem? found))
  · obtain ⟨patterns, found, rfl⟩ := mem_coveragePairs.mp coverage
    intro empty
    have some : patterns ≠ [] := by
      rintro rfl
      exact covered found
    have read := readCoverage_intercalate some (admitted.legible.coverage patterns found)
    rw [show ",".intercalate patterns = "" from empty] at read
    have refused : (readCoverage "").toOption = none := by decide +kernel
    rw [read] at refused
    cases refused

/-- A written stamp is read back from its line exactly when it is closed. -/
theorem parseReviewStamp_line (admitted : Admitted stamp) {blank : List Char}
    (h : ∀ x ∈ blank, isSpace x = true) :
    parseReviewStamp (String.ofList (lineText (stampFields stamp) ++ blank)) = .ok stamp ↔
      Closed stamp := by
  have tokens {fields : List (String × String)} :=
    @readTokens_lineText (stampFields (settled stamp)) fields (by simp [stampFields_eq, neededPairs])
      (fun _ member => nameText_stampFields member)
      (onLine_settled fun field member => (admitted.spelled field member).1)
      (nodup_stampFields _)
  rw [parseReviewStamp, String.toList_ofList, trimList_lineText admitted.legible h, bind_eq_ok]
  constructor
  · rintro ⟨fields, read, stamped⟩
    obtain ⟨filled, rfl⟩ := tokens.mp read
    have covered : stamp.coverage ≠ some [] := by
      intro none
      refine filled ("coverage", "") (mem_stampFields.mpr (.inr (.inr ?_))) rfl
      exact mem_coveragePairs.mpr ⟨[], by rw [settled_coverage, none], rfl⟩
    rw [stampOf_stampFields admitted.legible.settled (by rwa [settled_coverage])] at stamped
    exact ⟨covered, (settled_eq_self stamp).mp (Except.ok.inj stamped)⟩
  · rintro ⟨covered, solid⟩
    have same := (settled_eq_self stamp).mpr solid
    refine ⟨stampFields stamp, tokens.mpr ?_, stampOf_stampFields admitted.legible covered⟩
    rw [same]
    exact ⟨admitted.filled covered, rfl⟩

end Line

/-! ## The log -/

/-- A log that ends at the end of a line. -/
def WholeLines (log : Option String) : Prop :=
  ∀ text, log = some text → text.toList = [] ∨ ∃ front, text.toList = front ++ ['\n']

/-- The lines of a log that are read. -/
def readLines (text : List Char) : List (List Char) :=
  (text.splitOn '\n').filter fun line => !(trimList line).isEmpty

theorem map_parsed (text : String) : (readReviewStamps (some text)).map (·.parsed) =
    (readLines text.toList).map fun line => parseReviewStamp (String.ofList line) := by
  apply List.ext_getElem
  · simp [readReviewStamps, readLines]
  · intro index _ _
    simp [readReviewStamps, readLines]

/-- A line that is written after whole lines is read after them. -/
theorem readLines_append {text line : List Char}
    (whole : text = [] ∨ ∃ front, text = front ++ ['\n']) (one : '\n' ∉ line)
    (some : trimList line ≠ []) : readLines (text ++ (line ++ ['\n'])) = readLines text ++ [line] := by
  have split (front back : List Char) :
      (front ++ '\n' :: back).splitOn '\n' = front.splitOn '\n' ++ back.splitOn '\n' :=
    List.splitOnP_append_cons front back (beq_self_eq_true _)
  have single : line.splitOn '\n' = [line] :=
    List.splitOnP_eq_singleton fun x member => beq_false_of_ne fun same => one (same ▸ member)
  have nothing : ([] : List Char).splitOn '\n' = [[]] := rfl
  have kept : [line, []].filter (fun line => !(trimList line).isEmpty) = [line] := by
    rw [List.filter_cons_of_pos (by simpa using some)]
    rfl
  obtain rfl | ⟨front, rfl⟩ := whole
  · rw [readLines, List.nil_append, split, single, nothing]
    exact kept
  · rw [readLines, List.append_assoc, List.singleton_append, split, split, single, nothing,
      List.singleton_append, List.filter_append, kept, readLines, split, nothing,
      List.filter_append]
    exact congrArg (· ++ [line]) (List.append_nil _).symm

variable {stamp : ReviewStamp} {stamps : List ReviewStamp} {log : Option String}

theorem notMem_lineText (admitted : Admitted stamp) : '\n' ∉ lineText (stampFields stamp) := by
  have tokens : '\n' ∉ [' '].intercalate ((stampFields stamp).map tokenText) := by
    intro member
    obtain blank | ⟨_, token, inside⟩ := mem_intercalate member
    · cases blank
    · obtain ⟨field, among, rfl⟩ := List.mem_map.mp token
      rw [tokenText, List.mem_append, List.mem_cons] at inside
      obtain name | colon | value := inside
      · exact isAlnum_ne ((nameText_stampFields among).plain _ name) (by decide) rfl
      · cases colon
      · exact ((admitted.spelled field among).1 _ value).2.1 rfl
  rw [lineText, List.mem_append, List.mem_cons]
  rintro (version | blank | token)
  · exact absurd version (by decide +kernel)
  · cases blank
  · exact tokens token

theorem trimList_lineText_ne (admitted : Admitted stamp) :
    trimList (lineText (stampFields stamp)) ≠ [] := by
  have line := @trimList_lineText stamp admitted.legible [] (by simp)
  rw [List.append_nil] at line
  rw [line]
  simp [lineText]

/-- One more stamp is one more entry of the log. -/
theorem appendReviewStamp_step (admitted : Admitted stamp) (whole : WholeLines log) :
    ∃ text, appendReviewStamp log stamp = .ok (some text) ∧ WholeLines (some text) ∧
      (readReviewStamps (some text)).map (·.parsed) = (readReviewStamps log).map (·.parsed) ++
        [parseReviewStamp (String.ofList (lineText (stampFields stamp)))] := by
  refine ⟨log.getD "" ++ String.ofList (lineText (stampFields stamp) ++ ['\n']), ?_, ?_, ?_⟩
  · rw [appendReviewStamp, admitted.render]
    rfl
  · rintro _ ⟨⟩
    refine .inr ⟨(log.getD "").toList ++ lineText (stampFields stamp), ?_⟩
    rw [String.toList_append, String.toList_ofList, List.append_assoc]
  · have before : (log.getD "").toList = [] ∨ ∃ front, (log.getD "").toList = front ++ ['\n'] := by
      cases log with
      | none => exact .inl rfl
      | some text => exact whole text rfl
    have old : (readReviewStamps log).map (·.parsed) = (readLines (log.getD "").toList).map
        fun line => parseReviewStamp (String.ofList line) := by
      cases log with
      | none => rfl
      | some text => exact map_parsed text
    rw [map_parsed, String.toList_append, String.toList_ofList,
      readLines_append before (notMem_lineText admitted) (trimList_lineText_ne admitted),
      List.map_append, old]
    rfl

/-- The stamps of a list are read back from their lines, and they are the entries that a log of
whole lines has after them. -/
def RoundTrips (stamps : List ReviewStamp) : Prop :=
  (∀ stamp ∈ stamps, ∃ line, renderReviewStamp stamp = .ok line ∧
    parseReviewStamp line = .ok stamp) ∧
  ∀ log, WholeLines log → ∃ log', stamps.foldlM appendReviewStamp log = .ok log' ∧
    (readReviewStamps log').map (·.parsed) =
      (readReviewStamps log).map (·.parsed) ++ stamps.map .ok

/-- Closed stamps are read from a log as they were appended. -/
theorem appendReviewStamp_run (admitted : ∀ stamp ∈ stamps, Admitted stamp)
    (closed : ∀ stamp ∈ stamps, Closed stamp) (whole : WholeLines log) :
    ∃ log', stamps.foldlM appendReviewStamp log = .ok log' ∧
      (readReviewStamps log').map (·.parsed) =
        (readReviewStamps log).map (·.parsed) ++ stamps.map .ok := by
  induction stamps generalizing log with
  | nil => exact ⟨log, rfl, (List.append_nil _).symm⟩
  | cons stamp rest ih =>
      obtain ⟨now, later⟩ := List.forall_mem_cons.mp admitted
      obtain ⟨closedNow, closedLater⟩ := List.forall_mem_cons.mp closed
      obtain ⟨text, appended, wholeLater, entries⟩ := appendReviewStamp_step now whole
      obtain ⟨log', run, result⟩ := ih later closedLater wholeLater
      have read := (@parseReviewStamp_line stamp now [] (by simp)).mpr closedNow
      rw [List.append_nil] at read
      refine ⟨log', ?_, ?_⟩
      · rw [List.foldlM_cons, appended]
        exact run
      · rw [result, entries, read, List.append_assoc, List.map_cons]
        rfl

/-- Stamps that are written come back from their lines and from the log exactly when each of
them is closed. -/
theorem stamps_round_trip_iff (admitted : ∀ stamp ∈ stamps, Admitted stamp) :
    RoundTrips stamps ↔ ∀ stamp ∈ stamps, Closed stamp := by
  have newline : ∀ x ∈ ['\n'], isSpace x = true := by simp [isSpace]
  constructor
  · rintro ⟨lines, -⟩ stamp member
    obtain ⟨line, written, read⟩ := lines stamp member
    rw [(admitted stamp member).render] at written
    rw [← Except.ok.inj written] at read
    exact (parseReviewStamp_line (admitted stamp member) newline).mp read
  · intro closed
    constructor
    · intro stamp member
      exact ⟨_, (admitted stamp member).render,
        (parseReviewStamp_line (admitted stamp member) newline).mpr (closed stamp member)⟩
    · exact fun log whole => appendReviewStamp_run admitted closed whole

def zeroDigest : String := String.ofList (List.replicate 64 '0')

/-- A review whose line ends in the reference to its findings. -/
def findingsLast (findingsRef : String) : ReviewStamp where
  treeDigest := zeroDigest
  base := "main"
  verdict := .approved
  reviewer := "lab/model"
  reviewedAt := "2026-09-14T10:00:00Z"
  runIds := []
  findingsRef := findingsRef
  coverage := none

theorem onLine_zeroDigest : OnLine zeroDigest := by
  unfold OnLine zeroDigest
  intro x member
  rw [String.toList_ofList] at member
  obtain rfl := List.eq_of_mem_replicate member
  decide

theorem spelled_findingsLast {findingsRef : String} (line : OnLine findingsRef) :
    ∀ field ∈ stampFields (findingsLast findingsRef), Spelled field := by
  have date : iso8601.test "2026-09-14T10:00:00Z" = true := by decide +kernel
  intro field member
  simp only [stampFields, findingsLast, runIdFields, StampVerdict.text, List.append_nil,
    Option.map_none, Option.toList_none, List.mem_cons, List.not_mem_nil, or_false] at member
  obtain rfl | rfl | rfl | rfl | rfl | rfl := member
  · exact ⟨onLine_zeroDigest, by simp⟩
  · exact ⟨by simp [OnLine], by simp⟩
  · exact ⟨by simp [OnLine], by simp⟩
  · exact ⟨by simp [OnLine], by simp⟩
  · exact ⟨by simp [OnLine], fun _ => date⟩
  · exact ⟨line, by simp⟩

theorem admitted_findingsLast {findingsRef : String} (filled : findingsRef ≠ "")
    (line : OnLine findingsRef) : Admitted (findingsLast findingsRef) where
  digest := show digestPattern.test zeroDigest = true by decide +kernel
  runIds _ none := absurd none List.not_mem_nil
  coverage _ none := nomatch none
  base := show "main" ≠ "" by decide
  reviewer := show "lab/model" ≠ "" by decide
  findings := filled
  rendered := ⟨_, renderReviewStamp_eq_ok.mpr ⟨spelled_findingsLast line, rfl⟩⟩

theorem stamps_round_trip_dash : RoundTrips [findingsLast "-"] ↔
    ∀ stamp ∈ [findingsLast "-"], Closed stamp := by
  apply stamps_round_trip_iff
  intro stamp member
  obtain rfl := List.mem_singleton.mp member
  exact admitted_findingsLast (by decide +kernel) (by simp [OnLine])

/-- A tab at the end of the findings is trimmed with the end of the line. -/
theorem stamps_round_trip_refuted :
    Admitted (findingsLast "notes\t") ∧ ¬ RoundTrips [findingsLast "notes\t"] := by
  have admitted : Admitted (findingsLast "notes\t") :=
    admitted_findingsLast (by decide +kernel) (by simp [OnLine])
  refine ⟨admitted, fun ⟨lines, _⟩ => ?_⟩
  obtain ⟨line, written, read⟩ := lines _ List.mem_cons_self
  rw [admitted.render] at written
  rw [← Except.ok.inj written] at read
  have closed := (parseReviewStamp_line admitted (by simp [isSpace])).mp read
  have solid := closed.2 rfl rfl '\t' (by decide +kernel)
  exact absurd solid (by decide)

end AdCoder.Stamp
