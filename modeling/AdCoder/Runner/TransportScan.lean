import AdCoder.Runner.ToolTransport

/-!
# When the classifier returns

The scan goes past everything it reads but one: inside a parameter it searches
the next `<` from the index at which it stands, and so stays where it is if
that is a `<` which begins no tag.
-/

namespace AdCoder.Runner

open AdCoder.Foundation

variable {source : List Char} {index start next : Nat} {scan later : Scan} {tag : ToolProtoTag}

/-! ## Positions -/

theorem le_skipSpaces (source : List Char) (index : Nat) : index ≤ skipSpaces source index :=
  Nat.le_add_right _ _

/-- At a character that is no white space nothing is skipped. -/
theorem skipSpaces_of_charAt {x : Char} (h : charAt source index = some x)
    (plain : Regex.isSpace x = false) : skipSpaces source index = index := by
  have shape : source.drop index = x :: source.drop (index + 1) := by
    obtain ⟨inside, value⟩ := List.getElem?_eq_some_iff.mp h
    rw [← value]
    exact List.drop_eq_getElem_cons inside
  simp [skipSpaces, shape, plain]

theorem indexOf_bounds {search : List Char} (h : indexOf source search index = some next) :
    index ≤ next ∧ next < source.length ∧ startsWith source search next = true := by
  have found := List.find?_some h
  have member := List.mem_of_find?_eq_some h
  obtain ⟨gap, range, rfl⟩ := List.mem_map.mp member
  have inside := List.mem_range.mp range
  refine ⟨Nat.le_add_right _ _, by omega, found⟩

theorem startsWith_singleton {x : Char} :
    startsWith source [x] index = true ↔ charAt source index = some x := by
  rw [startsWith, charAt, ← List.head?_drop]
  cases source.drop index with
  | nil => simp
  | cons y ys =>
      simp only [List.isPrefixOf, Bool.and_true, beq_iff_eq, List.head?_cons, Option.some.injEq]
      exact eq_comm

/-- A search finds a text that stands where it begins. -/
theorem indexOf_of_startsWith {search : List Char} (h : startsWith source search index = true)
    (inside : index < source.length) : indexOf source search index = some index := by
  have shape : List.range (source.length - index) =
      0 :: (List.range (source.length - index - 1)).map Nat.succ := by
    rw [← List.range_succ_eq_map]
    congr 1
    omega
  rw [indexOf, shape]
  simp [h]

theorem charAt_lt {x : Char} (h : charAt source index = some x) : index < source.length :=
  (List.getElem?_eq_some_iff.mp h).1

/-! ## Tags are not empty -/

theorem reaches_length {c e : Cursor} {word : List Char} (h : c.Reaches word e) :
    e.after.length + word.length = c.after.length := by
  rw [h.1, List.length_append]
  omega

theorem ends_length (r : Regex) {c e : Cursor} (h : e ∈ r.ends c) :
    e.after.length ≤ c.after.length := by
  obtain ⟨word, reaches, -⟩ := Regex.consumes_ends r c e h
  have sum := reaches_length reaches
  omega

theorem literal_length {text : String} {c e : Cursor} (h : e ∈ (Regex.literal text).ends c) :
    e.after.length + text.toList.length = c.after.length := by
  unfold Regex.literal at h
  generalize text.toList = characters at h ⊢
  induction characters generalizing c with
  | nil =>
      obtain rfl := List.mem_singleton.mp h
      rfl
  | cons x xs ih =>
      obtain ⟨m, first, rest⟩ := List.mem_flatMap.mp h
      have tail := ih rest
      have head : m.after.length + 1 = c.after.length := by
        simp only [Regex.ends] at first
        split at first
        · cases first
        · next after =>
            split at first
            · obtain rfl := List.mem_singleton.mp first
              simp [after]
            · cases first
      rw [List.length_cons]
      omega

/-- A match has at least its opening bracket. -/
theorem tagMatches_length {slice : List Char} {found : TagMatch} (h : found ∈ tagMatches slice) :
    0 < found.length := by
  simp only [tagMatches, List.mem_flatMap, List.mem_map, Prod.exists] at h
  obtain ⟨bracket, opened, slash, mark, -, front, fronts, name, kind, -, named, names, attributed,
    attributes, past, closed, rfl⟩ := h
  have bracketed : bracket.after.length + 1 = slice.length := literal_length opened
  have fronted := ends_length _ fronts
  have nameRead := ends_length _ names
  have attributesRead := ends_length _ attributes
  have closedRead := ends_length _ closed
  show 0 < slice.length - past.after.length
  omega

theorem toolProtoTag_advances (h : toolProtoTag source scan index = some tag) :
    index < tag.pastEnd := by
  rcases Option.or_eq_some_iff.mp h with bracketed | ⟨-, bare⟩
  · unfold bracketedToolProtoTag at bracketed
    split at bracketed
    · cases bracketed
    · next found first =>
        have positive := tagMatches_length (List.mem_of_head? first)
        have past : tag.pastEnd = index + found.length := by
          split at bracketed
          · split at bracketed
            · exact congrArg ToolProtoTag.pastEnd (Option.some.inj bracketed).symm
            · cases bracketed
          · split at bracketed
            · cases bracketed
            · split at bracketed
              · cases bracketed
              · exact congrArg ToolProtoTag.pastEnd (Option.some.inj bracketed).symm
        omega
  · unfold bareDelimiterTag at bare
    split at bare
    · cases bare
    · cases bare
      exact Nat.lt_add_of_pos_right (by decide)

/-! ## One iteration -/

/-- Free text inside a parameter that begins with a `<` which begins no tag. -/
def Stuck (source : List Char) (scan : Scan) : Prop :=
  scan.stack.head? = some .parameter ∧ charAt source scan.i = some '<' ∧
    toolProtoTag source scan scan.i = none

theorem takeTag_continues (h : takeTag scan tag = .continues later) : later.i = tag.pastEnd := by
  unfold takeTag at h
  split at h
  · cases h
    rfl
  · split at h
    · cases h
    · split at h
      · cases h
        rfl
      · cases h

theorem scanIteration_below (h : scanIteration source scan = .continues later) :
    scan.i < source.length := by
  have forward := le_skipSpaces source scan.i
  simp only [scanIteration] at h
  split at h
  · cases h
  · omega

/-- A stuck scan stays as it is. -/
theorem Stuck.continues (h : Stuck source scan) :
    scanIteration source scan = .continues scan := by
  obtain ⟨inside, bracket, noTag⟩ := h
  have here : skipSpaces source scan.i = scan.i := skipSpaces_of_charAt bracket (by decide)
  have below := charAt_lt bracket
  have found : indexOf source ['<'] scan.i = some scan.i :=
    indexOf_of_startsWith (startsWith_singleton.mpr bracket) below
  simp [scanIteration, here, Nat.not_le.mpr below, noTag, inside, found]

/-- Every other iteration that does not return goes forward. -/
theorem scanIteration_advances (h : scanIteration source scan = .continues later)
    (free : ¬ Stuck source scan) : scan.i < later.i := by
  have forward := le_skipSpaces source scan.i
  simp only [scanIteration] at h
  split at h
  · cases h
  · split at h
    · next tag found =>
        have past := toolProtoTag_advances found
        have moved := takeTag_continues h
        omega
    · next noTag =>
        split at h
        · next inside =>
            split at h
            · cases h
            · next next found =>
                cases h
                obtain ⟨atLeast, -, bracket⟩ := indexOf_bounds found
                show scan.i < next
                by_contra stays
                have here : skipSpaces source scan.i = scan.i := by omega
                have same : next = scan.i := by omega
                rw [here] at noTag
                exact free ⟨inside, startsWith_singleton.mp (same ▸ bracket), noTag⟩
        · cases h

/-! ## The scan from one start -/

/-- The scan returns after finitely many iterations. -/
def Terminates (source : List Char) (start : Nat) : Prop :=
  ∃ fuel result, parsesTerminalToolEnvelope fuel source start = some result

/-- A state in which an iteration of the scan begins. -/
def Reached (source : List Char) (start : Nat) (scan : Scan) : Prop :=
  Loop.Reaches (scanIteration source) (Scan.first start) scan

theorem terminates_iff :
    Terminates source start ↔ ∀ scan, Reached source start scan → ¬ Stuck source scan := by
  constructor
  · intro returns scan reached stuck
    exact Loop.not_returns_of_fixed stuck.continues (reached.returns_iff.mp returns)
  · intro free
    refine Loop.returns_of_advances Scan.i source.length (fun _ _ => scanIteration_below) ?_
    intro scan later reached step
    exact scanIteration_advances step (free scan reached)

/-- Every iteration that does not return goes forward, exactly if no state is stuck. -/
theorem advances_iff :
    (∀ scan later, Reached source start scan → scanIteration source scan = .continues later →
      scan.i < later.i) ↔ ∀ scan, Reached source start scan → ¬ Stuck source scan := by
  constructor
  · intro advances scan reached stuck
    exact absurd (advances scan scan reached stuck.continues) (Nat.lt_irrefl _)
  · intro free scan later reached step
    exact scanIteration_advances step (free scan reached)

/-! ## The starts that are tried -/

/-- The scan from this start returns that no envelope was read. -/
def Rejects (source : List Char) (start : Nat) : Prop :=
  ∃ fuel, parsesTerminalToolEnvelope fuel source start = some false

/-- The positions from which the second loop of the classifier searches a bare delimiter. -/
inductive DelimiterRound (source : List Char) : Nat → Prop where
  | first : (∀ start ∈ openings source, Rejects source start) → DelimiterRound source 0
  | next {position index : Nat} : DelimiterRound source position →
      indexOf source dsml.toList position = some index →
      charBefore source index = some '<' ∨ Rejects source index →
      DelimiterRound source (index + dsml.toList.length)

/-- The starts with which the scan is called: those before which no other is accepted. -/
inductive Called (text : List CodeUnit) : Nat → Prop where
  | opening {before after : List Nat} {start : Nat} : trimEnd (text.map readUnit) ≠ [] →
      openings (transportSource text) = before ++ start :: after →
      (∀ earlier ∈ before, Rejects (transportSource text) earlier) → Called text start
  | delimiter {position index : Nat} : trimEnd (text.map readUnit) ≠ [] →
      DelimiterRound (transportSource text) position →
      indexOf (transportSource text) dsml.toList position = some index →
      charBefore (transportSource text) index ≠ some '<' → Called text index

variable {text : List CodeUnit} {fuel fuel' rounds rounds' position : Nat} {result : Bool}
  {starts before after : List Nat}

theorem parses_mono (le : fuel ≤ fuel')
    (h : parsesTerminalToolEnvelope fuel source start = some result) :
    parsesTerminalToolEnvelope fuel' source start = some result :=
  Loop.run_mono le h

theorem Rejects.parses (h : Rejects source start) (fuel : Nat) :
    parsesTerminalToolEnvelope fuel source start = none ∨
      parsesTerminalToolEnvelope fuel source start = some false := by
  obtain ⟨enough, rejected⟩ := h
  cases scanned : parsesTerminalToolEnvelope fuel source start with
  | none => exact .inl rfl
  | some result =>
      have one := parses_mono (Nat.le_max_left fuel enough) scanned
      have other := parses_mono (Nat.le_max_right fuel enough) rejected
      exact .inr (one.symm.trans other)

theorem tryOpenings_mono (le : fuel ≤ fuel') (h : tryOpenings fuel source starts = some result) :
    tryOpenings fuel' source starts = some result := by
  induction starts with
  | nil => exact h
  | cons start rest ih =>
      simp only [tryOpenings] at h ⊢
      cases scanned : parsesTerminalToolEnvelope fuel source start with
      | none => simp [scanned] at h
      | some accepted =>
          rw [scanned] at h
          rw [parses_mono le scanned]
          cases accepted with
          | true => exact h
          | false => exact ih h

theorem tryDelimiters_mono (le : fuel ≤ fuel') (more : rounds ≤ rounds')
    (h : tryDelimiters fuel source rounds position = some result) :
    tryDelimiters fuel' source rounds' position = some result := by
  induction rounds generalizing rounds' position with
  | zero => cases h
  | succ rounds ih =>
      obtain ⟨rounds', rfl⟩ : ∃ n, rounds' = n + 1 := ⟨rounds' - 1, by omega⟩
      simp only [tryDelimiters] at h ⊢
      cases found : indexOf source dsml.toList position with
      | none => simpa [found] using h
      | some index =>
          simp only [found] at h ⊢
          split
          · next bracket =>
              rw [if_pos bracket] at h
              exact ih (by omega) h
          · next bare =>
              rw [if_neg bare] at h
              cases scanned : parsesTerminalToolEnvelope fuel source index with
              | none => simp [scanned] at h
              | some accepted =>
                  rw [scanned] at h
                  rw [parses_mono le scanned]
                  cases accepted with
                  | true => exact h
                  | false => exact ih (by omega) h

/-! ## Scans that return make the classifier return -/

/-- The first loop either accepts a start or rejects all of them. -/
theorem tryOpenings_returns
    (called : ∀ before start after, starts = before ++ start :: after →
      (∀ earlier ∈ before, Rejects source earlier) → Terminates source start) :
    (∃ fuel, tryOpenings fuel source starts = some true) ∨
      ((∃ fuel, tryOpenings fuel source starts = some false) ∧
        ∀ start ∈ starts, Rejects source start) := by
  induction starts with
  | nil => exact .inr ⟨⟨0, rfl⟩, by simp⟩
  | cons start rest ih =>
      obtain ⟨fuel, accepted, scanned⟩ := called [] start rest rfl (by simp)
      cases accepted with
      | true => exact .inl ⟨fuel, by simp [tryOpenings, scanned]⟩
      | false =>
          have rejected : Rejects source start := ⟨fuel, scanned⟩
          have later := ih fun before start' after shape earlier =>
            called (start :: before) start' after (by simp [shape]) (by
              intro other member
              rcases List.mem_cons.mp member with rfl | member
              · exact rejected
              · exact earlier other member)
          have join : ∀ {fuel' : Nat} {result : Bool}, tryOpenings fuel' source rest = some result →
              tryOpenings (max fuel fuel') source (start :: rest) = some result := by
            intro fuel' result tried
            simp only [tryOpenings, parses_mono (Nat.le_max_left fuel fuel') scanned]
            exact tryOpenings_mono (Nat.le_max_right fuel fuel') tried
          rcases later with ⟨fuel', tried⟩ | ⟨⟨fuel', tried⟩, all⟩
          · exact .inl ⟨_, join tried⟩
          · refine .inr ⟨⟨_, join tried⟩, ?_⟩
            intro other member
            rcases List.mem_cons.mp member with rfl | member
            · exact rejected
            · exact all other member

/-- The second loop goes past a delimiter in every round. -/
theorem tryDelimiters_returns
    (called : ∀ position index, DelimiterRound source position →
      indexOf source dsml.toList position = some index → charBefore source index ≠ some '<' →
      Terminates source index)
    (round : DelimiterRound source position) :
    ∃ fuel rounds result, tryDelimiters fuel source rounds position = some result := by
  suffices ∀ gap position, source.length - position ≤ gap → DelimiterRound source position →
      ∃ fuel rounds result, tryDelimiters fuel source rounds position = some result from
    this _ position (Nat.le_refl _) round
  intro gap
  induction gap with
  | zero =>
      intro position short _
      have none' : indexOf source dsml.toList position = none := by
        have empty : source.length - position = 0 := by omega
        simp [indexOf, empty]
      exact ⟨0, 1, false, by simp [tryDelimiters, none']⟩
  | succ gap ih =>
      intro position short round
      cases found : indexOf source dsml.toList position with
      | none => exact ⟨0, 1, false, by simp [tryDelimiters, found]⟩
      | some index =>
          obtain ⟨forward, inside, -⟩ := indexOf_bounds found
          have wide : 0 < dsml.toList.length := by decide
          by_cases bracket : charBefore source index = some '<'
          · obtain ⟨fuel, rounds, result, tried⟩ :=
              ih (index + dsml.toList.length) (by omega) (round.next found (.inl bracket))
            exact ⟨fuel, rounds + 1, result, by simpa [tryDelimiters, found, bracket] using tried⟩
          · obtain ⟨fuel, accepted, scanned⟩ := called position index round found bracket
            cases accepted with
            | true => exact ⟨fuel, 1, true, by simp [tryDelimiters, found, bracket, scanned]⟩
            | false =>
                obtain ⟨fuel', rounds, result, tried⟩ :=
                  ih (index + dsml.toList.length) (by omega)
                    (round.next found (.inr ⟨fuel, scanned⟩))
                refine ⟨max fuel fuel', rounds + 1, result, ?_⟩
                have again := tryDelimiters_mono (Nat.le_max_right fuel fuel') (Nat.le_refl rounds)
                  tried
                simpa [tryDelimiters, found, bracket,
                  parses_mono (Nat.le_max_left fuel fuel') scanned] using again

theorem classifier_returns (called : ∀ start, Called text start →
    Terminates (transportSource text) start) :
    ∃ fuel result, textHasUnrecoveredToolTransport fuel text = some result := by
  by_cases empty : trimEnd (text.map readUnit) = []
  · exact ⟨0, false, by simp [textHasUnrecoveredToolTransport, empty]⟩
  · rcases tryOpenings_returns fun before start after shape earlier =>
      called start (.opening empty shape earlier) with ⟨fuel, tried⟩ | ⟨⟨fuel, tried⟩, all⟩
    · exact ⟨fuel, true, by simp [textHasUnrecoveredToolTransport, empty, tried]⟩
    · obtain ⟨fuel', rounds, result, searched⟩ := tryDelimiters_returns
        (fun position index round found bare => called index (.delimiter empty round found bare))
        (.first all)
      refine ⟨max fuel (max fuel' rounds), result, ?_⟩
      have opened := tryOpenings_mono (Nat.le_max_left fuel (max fuel' rounds)) tried
      have delimited : tryDelimiters (max fuel (max fuel' rounds)) (transportSource text)
          (max fuel (max fuel' rounds)) 0 = some result :=
        tryDelimiters_mono (by omega) (by omega) searched
      simpa [textHasUnrecoveredToolTransport, empty, opened] using delimited

/-! ## A classifier that returns has made its scans return -/

theorem tryOpenings_called (earlier : ∀ other ∈ before, Rejects source other)
    (h : tryOpenings fuel source (before ++ start :: after) = some result) :
    Terminates source start := by
  induction before with
  | nil =>
      cases scanned : parsesTerminalToolEnvelope fuel source start with
      | none => simp [tryOpenings, scanned] at h
      | some accepted => exact ⟨fuel, accepted, scanned⟩
  | cons other before ih =>
      have rejected := (earlier other (by simp)).parses fuel
      apply ih fun another member => earlier another (by simp [member])
      rcases rejected with out | scanned
      · simp [tryOpenings, out] at h
      · simpa [tryOpenings, scanned] using h

theorem tryOpenings_rejects (all : ∀ start ∈ starts, Rejects source start)
    (h : tryOpenings fuel source starts = some result) : result = false := by
  induction starts with
  | nil => exact (Option.some.inj h).symm
  | cons start rest ih =>
      rcases (all start (by simp)).parses fuel with out | scanned
      · simp [tryOpenings, out] at h
      · refine ih (fun other member => all other (by simp [member])) ?_
        simpa [tryOpenings, scanned] using h

/-- Every round of the second loop was run. -/
theorem tryDelimiters_round (round : DelimiterRound source position)
    (h : tryDelimiters fuel source rounds 0 = some result) :
    ∃ rounds', tryDelimiters fuel source rounds' position = some result := by
  induction round with
  | first => exact ⟨rounds, h⟩
  | next _ found left ih =>
      obtain ⟨rounds', tried⟩ := ih
      cases rounds' with
      | zero => cases tried
      | succ rounds' =>
          refine ⟨rounds', ?_⟩
          simp only [tryDelimiters, found] at tried
          split at tried
          · exact tried
          · next bare =>
              rcases left with bracket | rejected
              · exact absurd bracket bare
              · rcases rejected.parses fuel with out | scanned
                · simp [out] at tried
                · simpa [scanned] using tried

theorem called_terminates (called : Called text start)
    (h : textHasUnrecoveredToolTransport fuel text = some result) :
    Terminates (transportSource text) start := by
  cases called with
  | opening filled shape earlier =>
      simp only [textHasUnrecoveredToolTransport, filled, if_false] at h
      cases tried : tryOpenings fuel (transportSource text) (openings (transportSource text)) with
      | none => simp [tried] at h
      | some accepted => exact tryOpenings_called earlier (shape ▸ tried)
  | delimiter filled round found bare =>
      simp only [textHasUnrecoveredToolTransport, filled, if_false] at h
      have all : ∀ other ∈ openings (transportSource text), Rejects (transportSource text) other := by
        clear found bare
        induction round with
        | first all => exact all
        | next _ _ _ ih => exact ih
      cases tried : tryOpenings fuel (transportSource text) (openings (transportSource text)) with
      | none => simp [tried] at h
      | some accepted =>
          cases tryOpenings_rejects all tried
          obtain ⟨rounds, searched⟩ := tryDelimiters_round round (by simpa [tried] using h)
          cases rounds with
          | zero => cases searched
          | succ rounds =>
              simp only [tryDelimiters, found, bare, if_false] at searched
              cases scanned : parsesTerminalToolEnvelope fuel (transportSource text) start with
              | none => simp [scanned] at searched
              | some accepted => exact ⟨fuel, accepted, scanned⟩

/-! ## The classifier -/

/-- No scan that the classifier starts comes, inside a parameter, to a `<` which begins no tag. -/
def NeverStuck (text : List CodeUnit) : Prop :=
  ∀ start, Called text start → ∀ scan, Reached (transportSource text) start scan →
    ¬ Stuck (transportSource text) scan

/-- Each iteration that does not return strictly advances the scan index, each scan returns and
the classifier returns, all exactly on the texts on which no scan gets stuck. -/
theorem classifier_terminates_iff (text : List CodeUnit) :
    ((∀ start, Called text start → ∀ scan later, Reached (transportSource text) start scan →
      scanIteration (transportSource text) scan = .continues later → scan.i < later.i) ↔
        NeverStuck text) ∧
    ((∀ start, Called text start → Terminates (transportSource text) start) ↔ NeverStuck text) ∧
    ((∃ fuel result, textHasUnrecoveredToolTransport fuel text = some result) ↔
      NeverStuck text) := by
  have scans : (∀ start, Called text start → Terminates (transportSource text) start) ↔
      NeverStuck text :=
    forall_congr' fun start => imp_congr_right fun _ => terminates_iff
  refine ⟨?_, scans, ?_⟩
  · exact forall_congr' fun start => imp_congr_right fun _ => advances_iff
  · constructor
    · rintro ⟨fuel, result, returned⟩
      exact scans.mp fun start called => called_terminates called returned
    · intro free
      exact classifier_returns (scans.mpr free)

/-- An envelope whose parameter is the text `1 < 2`. -/
def comparisonText : List CodeUnit :=
  (codeUnits "<invoke name=\"a\"><parameter name=\"b\">1 < 2</parameter></invoke>").map
    UInt16.ofNat

/-- The scan stands at the `<` between the tags of the parameter. -/
def comparisonScan : Scan :=
  { stack := [.parameter, .invoke], sawInvoke := true, seenCallsOpen := false, i := 39 }

theorem comparisonScan_reached : Reached (transportSource comparisonText) 0 comparisonScan := by
  have invoke : scanIteration (transportSource comparisonText) (Scan.first 0) = .continues
      { stack := [.invoke], sawInvoke := true, seenCallsOpen := false, i := 17 } := by
    decide +kernel
  have parameter : scanIteration (transportSource comparisonText)
      { stack := [.invoke], sawInvoke := true, seenCallsOpen := false, i := 17 } = .continues
      { stack := [.parameter, .invoke], sawInvoke := true, seenCallsOpen := false, i := 37 } := by
    decide +kernel
  have text : scanIteration (transportSource comparisonText)
      { stack := [.parameter, .invoke], sawInvoke := true, seenCallsOpen := false, i := 37 } =
      .continues comparisonScan := by
    decide +kernel
  exact ((Loop.Reaches.start.next invoke).next parameter).next text

theorem comparison_not_classified :
    Called comparisonText 0 ∧ ¬ Terminates (transportSource comparisonText) 0 ∧
      scanIteration (transportSource comparisonText) comparisonScan = .continues comparisonScan ∧
      ¬ ∃ fuel result, textHasUnrecoveredToolTransport fuel comparisonText = some result := by
  have filled : trimEnd (comparisonText.map readUnit) ≠ [] := by decide +kernel
  have starts : openings (transportSource comparisonText) = [] ++ 0 :: [] := by decide +kernel
  have called : Called comparisonText 0 := .opening filled starts (by simp)
  have stuck : Stuck (transportSource comparisonText) comparisonScan :=
    ⟨rfl, by decide +kernel, by decide +kernel⟩
  have endless : ¬ Terminates (transportSource comparisonText) 0 := fun returns =>
    terminates_iff.mp returns comparisonScan comparisonScan_reached stuck
  refine ⟨called, endless, stuck.continues, ?_⟩
  rintro ⟨fuel, result, returned⟩
  exact endless (called_terminates called returned)

end AdCoder.Runner
