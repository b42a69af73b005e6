import AdCoder.Economics.CostAnomaly
import Mathlib.Tactic.Linarith

/-!
# When a scope is blocked

The streak of a scope is a property of the history alone: how many charges over
its ceiling came since the last charge under it and since the last release that
lifted a block. The detector's pending ratios are as many while the scope is not
blocked.
-/

namespace AdCoder.Economics

open AdCoder.Foundation
open CostAnomalyDetector (amount fold)

/-- What is done to a detector; an observation comes with the clock it is made at. -/
inductive Act where
  | observe (now : Nat) (observation : CostAnomalyObservation)
  | release (provider model : String)
  | admitRun (provider model : String)
  | assertNoBoundaryFailure

def CostAnomalyDetector.act (detector : CostAnomalyDetector) : Act → CostAnomalyDetector
  | .observe now observation => (detector.observe now observation).1
  | .release provider model => (detector.release provider model).1
  | .admitRun provider model => (detector.admitRun provider model).1
  | .assertNoBoundaryFailure => detector.assertNoBoundaryFailure.1

/-- The detector after a history, whose latest act comes first. -/
def after (config : CostAnomalyConfig) : List Act → CostAnomalyDetector
  | [] => .fresh config
  | act :: earlier => (after config earlier).act act

def CostAnomalyDetector.blocked (detector : CostAnomalyDetector) (key : String) : Bool :=
  ((detector.scopes key).bind (·.block)).isSome

/-- What a scope is judged against. -/
def CostAnomalyDetector.acceptedRatio (detector : CostAnomalyDetector) (key : String) : Rat :=
  ((detector.scopes key).bind (·.accepted)).getD 1

/-- The ratio of an observation that counts: a disabled detector takes none, and both halves
must be real money. -/
def countedRatio (config : CostAnomalyConfig) (observation : CostAnomalyObservation) : Option Rat :=
  if config.enabled then
    match amount observation.chargedUsd, amount observation.expectedUsd with
    | some charged, some expected => some (charged / expected)
    | _, _ => none
  else none

/-- The ratio of the counted observation of a scope that an act makes. -/
def Act.ratio (config : CostAnomalyConfig) (key : String) : Act → Option Rat
  | .observe _ observation =>
      if costAnomalyScopeKey observation.provider observation.model = key then
        countedRatio config observation
      else none
  | _ => none

/-- Whether an act is a release of the scope. -/
def Act.releases (key : String) : Act → Bool
  | .release provider model => costAnomalyScopeKey provider model == key
  | _ => false

/-- How many consecutive observations over the scope's ceiling came since the last one under it
and since the last release. Whether a release of a scope that is not blocked counts as one is
what `idle` says. -/
def streak (idle : Bool) (config : CostAnomalyConfig) (key : String) : List Act → Nat
  | [] => 0
  | act :: earlier =>
      match act.ratio config key with
      | some ratio =>
          if (after config earlier).acceptedRatio key * config.thresholdRatio ≤ ratio then
            streak idle config key earlier + 1
          else 0
      | none =>
          if act.releases key && (idle || (after config earlier).blocked key) then 0
          else streak idle config key earlier

/-- The law of one act on one scope after any history. -/
structure BlockingLaw (idle : Bool) (config : CostAnomalyConfig) (earlier : List Act) (act : Act)
    (key : String) : Prop where
  /-- The scope becomes blocked at the observation that completes the streak, and at no other. -/
  blocks : (after config earlier).blocked key = false →
    ((after config (act :: earlier)).blocked key = true ↔
      ∃ ratio, act.ratio config key = some ratio ∧
        (after config earlier).acceptedRatio key * config.thresholdRatio ≤ ratio ∧
        streak idle config key earlier + 1 = config.confirmingObservations)
  /-- Only a release of the scope unblocks it, and each does. -/
  unblocks : (after config earlier).blocked key = true →
    ((after config (act :: earlier)).blocked key = false ↔ act.releases key = true)
  /-- A release raises the ceiling by the threshold at least. -/
  raises : act.releases key = true → (idle || (after config earlier).blocked key) = true →
    (after config earlier).acceptedRatio key * config.thresholdRatio ≤
      (after config (act :: earlier)).acceptedRatio key
  /-- Nothing else changes the ceiling. -/
  keeps : act.releases key = false →
    (after config (act :: earlier)).acceptedRatio key = (after config earlier).acceptedRatio key
  /-- What is about another scope, or counts for nothing, leaves the scope as it was. -/
  unaffected : act.ratio config key = none → act.releases key = false →
    (after config (act :: earlier)).scopes key = (after config earlier).scopes key

variable {config : CostAnomalyConfig} {earlier : List Act} {act : Act} {key : String} {now : Nat}
  {charged expected ratio bound : Rat} {state : CostAnomalyScopeState}
  {detector : CostAnomalyDetector}

/-! ## The median -/

theorem le_getD {values : List Rat} (h : ∀ value ∈ values, bound ≤ value) {index : Nat}
    (inside : index < values.length) : bound ≤ values.getD index 0 := by
  have value : values.getD index 0 = values[index] := by simp [List.getD, inside]
  rw [value]
  exact h _ (List.getElem_mem inside)

theorem le_median {values : List Rat} (h : ∀ value ∈ values, bound ≤ value)
    (filled : values ≠ []) : bound ≤ median values := by
  have sorted : ∀ value ∈ values.insertionSort (· ≤ ·), bound ≤ value := by
    intro value member
    exact h value ((List.perm_insertionSort _ values).mem_iff.mp member)
  have positive : 0 < (values.insertionSort (· ≤ ·)).length := by
    rw [List.length_insertionSort]
    exact List.length_pos_iff.mpr filled
  have upper : bound ≤ (values.insertionSort (· ≤ ·)).getD
      ((values.insertionSort (· ≤ ·)).length / 2) 0 := le_getD sorted (by omega)
  have lower : bound ≤ (values.insertionSort (· ≤ ·)).getD
      ((values.insertionSort (· ≤ ·)).length / 2 - 1) 0 := le_getD sorted (by omega)
  simp only [median]
  split
  · exact upper
  · linarith

/-! ## What each act does to a scope -/

/-- The state of a scope that has none yet. -/
def CostAnomalyDetector.scope (detector : CostAnomalyDetector) (provider model : String) :
    CostAnomalyScopeState :=
  (detector.scopes (costAnomalyScopeKey provider model)).getD
    ⟨provider, model, [], [], none, none, none, none⟩

theorem act_config (detector : CostAnomalyDetector) (act : Act) :
    (detector.act act).config = detector.config := by
  cases act with
  | observe now observation =>
      simp only [CostAnomalyDetector.act, CostAnomalyDetector.observe]
      split
      · split
        · rfl
        · rfl
      · rfl
  | release provider model =>
      simp only [CostAnomalyDetector.act, CostAnomalyDetector.release]
      split
      · rfl
      · split
        · rfl
        · rfl
  | admitRun provider model =>
      simp only [CostAnomalyDetector.act, CostAnomalyDetector.admitRun]
      split
      · split
        · rfl
        · rfl
      · rfl
  | assertNoBoundaryFailure =>
      simp only [CostAnomalyDetector.act, CostAnomalyDetector.assertNoBoundaryFailure]
      split
      · rfl
      · rfl

theorem after_config : (after config earlier).config = config := by
  induction earlier with
  | nil => rfl
  | cons act earlier ih => exact (act_config _ act).trans ih

/-- The three things that folding an observation into a scope can do. -/
theorem fold_cases (config : CostAnomalyConfig) (now : Nat) (charged expected : Rat)
    (state : CostAnomalyScopeState) :
    let later := (fold config now charged expected state).1
    (state.block.isSome ∧ later = state) ∨
    (state.block = none ∧ charged / expected < state.accepted.getD 1 * config.thresholdRatio ∧
      later.block = none ∧ later.pending = [] ∧ later.accepted = state.accepted) ∨
    (state.block = none ∧ state.accepted.getD 1 * config.thresholdRatio ≤ charged / expected ∧
      later.pending = state.pending ++ [charged / expected] ∧ later.accepted = state.accepted ∧
      (later.block = none ∧ state.pending.length + 1 < config.confirmingObservations ∨
        ∃ block, later.block = some block ∧ block.ratio = median later.pending ∧
          config.confirmingObservations ≤ state.pending.length + 1)) := by
  cases blocked : state.block with
  | some block => exact .inl ⟨rfl, by simp [fold, blocked]⟩
  | none =>
      refine .inr ?_
      by_cases under : charged / expected < state.accepted.getD 1 * config.thresholdRatio
      · exact .inl ⟨rfl, under, by simp [fold, blocked, under, trim],
          by simp [fold, blocked, under, trim], by simp [fold, blocked, under, trim]⟩
      · refine .inr ⟨rfl, not_lt.mp under, ?_⟩
        by_cases short : state.pending.length + 1 < config.confirmingObservations
        · simp [fold, blocked, under, short]
        · simp [fold, blocked, under, short, not_lt.mp short]

theorem observe_scopes (now : Nat) {observation : CostAnomalyObservation}
    (h : countedRatio detector.config observation = some ratio) :
    ∃ charged expected, ratio = charged / expected ∧
      (detector.observe now observation).1 = detector.setScope
        (costAnomalyScopeKey observation.provider observation.model)
        (fold detector.config now charged expected
          (detector.scope observation.provider observation.model)).1 := by
  obtain ⟨provider, model, chargedUsd, expectedUsd⟩ := observation
  unfold countedRatio at h
  split at h
  · next enabled =>
      split at h
      · next charged expected paid predicted =>
          refine ⟨charged, expected, (Option.some.inj h).symm, ?_⟩
          simp only at paid predicted
          simp [CostAnomalyDetector.observe, enabled, paid, predicted, CostAnomalyDetector.scope]
      · cases h
  · cases h

theorem observe_ignored {observation : CostAnomalyObservation}
    (h : countedRatio detector.config observation = none) :
    (detector.observe now observation).1 = detector := by
  obtain ⟨provider, model, chargedUsd, expectedUsd⟩ := observation
  by_cases enabled : detector.config.enabled = true
  · cases paid : amount chargedUsd with
    | none => simp [CostAnomalyDetector.observe, enabled, paid]
    | some charged =>
        cases predicted : amount expectedUsd with
        | none => simp [CostAnomalyDetector.observe, enabled, paid, predicted]
        | some expected => simp [countedRatio, enabled, paid, predicted] at h
  · simp [CostAnomalyDetector.observe, enabled]

theorem release_idle {provider model : String}
    (h : detector.blocked (costAnomalyScopeKey provider model) = false) :
    (detector.release provider model).1 = detector := by
  simp only [CostAnomalyDetector.release]
  split
  · rfl
  · next state known =>
      have unblocked : state.block = none := by
        simpa [CostAnomalyDetector.blocked, known] using h
      rw [unblocked]

theorem release_lifts {provider model : String} {state : CostAnomalyScopeState}
    {block : CostAnomalyBlock}
    (known : detector.scopes (costAnomalyScopeKey provider model) = some state)
    (blocked : state.block = some block) :
    ∃ lifted, (detector.release provider model).1 =
        detector.setScope (costAnomalyScopeKey provider model) lifted ∧
      lifted.block = none ∧ lifted.pending = [] ∧
      lifted.accepted = some (max (state.accepted.getD 1) block.ratio) := by
  refine ⟨_, by simp only [CostAnomalyDetector.release, known, blocked]; rfl, rfl, rfl, rfl⟩

theorem setScope_same : (detector.setScope key state).scopes key = some state :=
  Function.update_self _ _ _

theorem setScope_other {other : String} (h : key ≠ other) :
    (detector.setScope other state).scopes key = detector.scopes key :=
  Function.update_of_ne h _ _

/-- An act that counts for nothing on a scope. -/
theorem act_scopes_of_quiet (observes : act.ratio detector.config key = none)
    (holds : act.releases key = false) : (detector.act act).scopes key = detector.scopes key := by
  cases act with
  | observe now observation =>
      show (detector.observe now observation).1.scopes key = detector.scopes key
      cases counted : countedRatio detector.config observation with
      | none => rw [observe_ignored counted]
      | some ratio =>
          obtain ⟨charged, expected, -, folded⟩ := observe_scopes now counted
          rw [folded]
          apply setScope_other
          rintro rfl
          simp [Act.ratio, counted] at observes
  | release provider model =>
      have other : key ≠ costAnomalyScopeKey provider model := by
        rintro rfl
        simp [Act.releases] at holds
      show (detector.release provider model).1.scopes key = detector.scopes key
      by_cases blocked : detector.blocked (costAnomalyScopeKey provider model) = true
      · cases known : detector.scopes (costAnomalyScopeKey provider model) with
        | none => simp [CostAnomalyDetector.blocked, known] at blocked
        | some state =>
            cases held : state.block with
            | none => simp [CostAnomalyDetector.blocked, known, held] at blocked
            | some block =>
                obtain ⟨lifted, same, -⟩ := release_lifts known held
                rw [same]
                exact setScope_other other
      · rw [release_idle (by simpa using blocked)]
  | admitRun provider model =>
      simp only [CostAnomalyDetector.act, CostAnomalyDetector.admitRun]
      split
      · split
        · rfl
        · rfl
      · rfl
  | assertNoBoundaryFailure =>
      simp only [CostAnomalyDetector.act, CostAnomalyDetector.assertNoBoundaryFailure]
      split
      · rfl
      · rfl

/-- The pending ratios of a scope. -/
def CostAnomalyDetector.pending (detector : CostAnomalyDetector) (key : String) : List Rat :=
  ((detector.scopes key).map (·.pending)).getD []

/-- An act that observes a scope folds its ratio into the scope's state. -/
theorem act_observes (detector : CostAnomalyDetector)
    (observes : act.ratio detector.config key = some ratio) :
    ∃ now charged expected state, ratio = charged / expected ∧
      state.block = (detector.scopes key).bind (·.block) ∧
      state.pending = detector.pending key ∧
      state.accepted = (detector.scopes key).bind (·.accepted) ∧
      (detector.act act).scopes key =
        some (fold detector.config now charged expected state).1 := by
  cases act with
  | observe now observation =>
      simp only [Act.ratio] at observes
      split at observes
      · next same =>
          subst same
          obtain ⟨charged, expected, quotient, folded⟩ := observe_scopes now observes
          refine ⟨now, charged, expected, detector.scope observation.provider observation.model,
            quotient, ?_, ?_, ?_, ?_⟩
          · cases known : detector.scopes
                (costAnomalyScopeKey observation.provider observation.model) with
            | none => simp [CostAnomalyDetector.scope, known]
            | some state => simp [CostAnomalyDetector.scope, known]
          · cases known : detector.scopes
                (costAnomalyScopeKey observation.provider observation.model) with
            | none => simp [CostAnomalyDetector.scope, CostAnomalyDetector.pending, known]
            | some state => simp [CostAnomalyDetector.scope, CostAnomalyDetector.pending, known]
          · cases known : detector.scopes
                (costAnomalyScopeKey observation.provider observation.model) with
            | none => simp [CostAnomalyDetector.scope, known]
            | some state => simp [CostAnomalyDetector.scope, known]
          · show (detector.observe now observation).1.scopes _ = _
            rw [folded]
            exact setScope_same
      · cases observes
  | release provider model => cases observes
  | admitRun provider model => cases observes
  | assertNoBoundaryFailure => cases observes

/-- A release of a blocked scope lifts its block. -/
theorem act_lifts (releases : act.releases key = true) (blocked : detector.blocked key = true) :
    ∃ block lifted, (detector.scopes key).bind (·.block) = some block ∧
      (detector.act act).scopes key = some lifted ∧ lifted.block = none ∧ lifted.pending = [] ∧
      lifted.accepted = some (max (detector.acceptedRatio key) block.ratio) := by
  cases act with
  | observe now observation => cases releases
  | release provider model =>
      have same : costAnomalyScopeKey provider model = key := by
        simpa [Act.releases] using releases
      subst same
      cases known : detector.scopes (costAnomalyScopeKey provider model) with
      | none => simp [CostAnomalyDetector.blocked, known] at blocked
      | some state =>
          cases held : state.block with
          | none => simp [CostAnomalyDetector.blocked, known, held] at blocked
          | some block =>
              obtain ⟨lifted, set, unblocked, empty, accepted⟩ := release_lifts known held
              refine ⟨block, lifted, by simpa using held, ?_, unblocked, empty, ?_⟩
              · show (detector.release provider model).1.scopes _ = _
                rw [set]
                exact setScope_same
              · simpa [CostAnomalyDetector.acceptedRatio, known] using accepted
  | admitRun provider model => cases releases
  | assertNoBoundaryFailure => cases releases

/-- A release of a scope that is not blocked changes nothing. -/
theorem act_idle (releases : act.releases key = true) (free : detector.blocked key = false) :
    detector.act act = detector := by
  cases act with
  | observe now observation => cases releases
  | release provider model =>
      have same : costAnomalyScopeKey provider model = key := by
        simpa [Act.releases] using releases
      subst same
      exact release_idle free
  | admitRun provider model => cases releases
  | assertNoBoundaryFailure => cases releases

theorem ratio_of_releases (h : act.releases key = true) : act.ratio config key = none := by
  cases act with
  | observe now observation => cases h
  | release provider model => rfl
  | admitRun provider model => rfl
  | assertNoBoundaryFailure => rfl

section Scope

variable (known : detector.scopes key = some state)
include known

theorem blocked_of_scope : detector.blocked key = state.block.isSome := by
  simp [CostAnomalyDetector.blocked, known]

theorem pending_of_scope : detector.pending key = state.pending := by
  simp [CostAnomalyDetector.pending, known]

theorem acceptedRatio_of_scope : detector.acceptedRatio key = state.accepted.getD 1 := by
  simp [CostAnomalyDetector.acceptedRatio, known]

end Scope

/-! ## The streak is what the detector counts -/

/-- A scope after a history, with what the history says of it. -/
structure Tracks (config : CostAnomalyConfig) (earlier : List Act) (key : String) : Prop where
  counted : (after config earlier).blocked key = false →
    ((after config earlier).pending key).length = streak false config key earlier
  short : (after config earlier).blocked key = false →
    streak false config key earlier < config.confirmingObservations
  above : ∀ ratio ∈ (after config earlier).pending key,
    (after config earlier).acceptedRatio key * config.thresholdRatio ≤ ratio
  confirmed : ∀ block, ((after config earlier).scopes key).bind (·.block) = some block →
    (after config earlier).acceptedRatio key * config.thresholdRatio ≤ block.ratio

theorem tracks_fresh : Tracks config [] key where
  counted _ := rfl
  short _ := Nat.lt_of_lt_of_le Nat.zero_lt_two config.confirms
  above _ member := by cases member
  confirmed _ held := by cases held

/-- What an observation does, by the ceiling of the scope. -/
theorem after_observes (earlier : List Act) (observes : act.ratio config key = some ratio) :
    ((after config earlier).blocked key = true ∧
      ((after config (act :: earlier)).scopes key).bind (·.block) =
        ((after config earlier).scopes key).bind (·.block) ∧
      (after config (act :: earlier)).pending key = (after config earlier).pending key ∧
      (after config (act :: earlier)).acceptedRatio key =
        (after config earlier).acceptedRatio key) ∨
    ((after config earlier).blocked key = false ∧
      ratio < (after config earlier).acceptedRatio key * config.thresholdRatio ∧
      (after config (act :: earlier)).blocked key = false ∧
      (after config (act :: earlier)).pending key = [] ∧
      (after config (act :: earlier)).acceptedRatio key =
        (after config earlier).acceptedRatio key) ∨
    ((after config earlier).blocked key = false ∧
      (after config earlier).acceptedRatio key * config.thresholdRatio ≤ ratio ∧
      (after config (act :: earlier)).pending key =
        (after config earlier).pending key ++ [ratio] ∧
      (after config (act :: earlier)).acceptedRatio key =
        (after config earlier).acceptedRatio key ∧
      ((after config (act :: earlier)).blocked key = false ∧
          ((after config earlier).pending key).length + 1 < config.confirmingObservations ∨
        ∃ block, ((after config (act :: earlier)).scopes key).bind (·.block) = some block ∧
          block.ratio = median ((after config (act :: earlier)).pending key) ∧
          config.confirmingObservations ≤
            ((after config earlier).pending key).length + 1)) := by
  have configured : (after config earlier).config = config := after_config
  obtain ⟨now, charged, expected, state, rfl, block, pending, accepted, folded⟩ :=
    act_observes (after config earlier) (by rw [configured]; exact observes)
  rw [configured] at folded
  have ceiling : (after config earlier).acceptedRatio key = state.accepted.getD 1 := by
    rw [accepted]
    rfl
  have held : (after config earlier).blocked key = state.block.isSome := by
    rw [block]
    rfl
  have folded : (after config (act :: earlier)).scopes key =
      some (fold config now charged expected state).1 := folded
  rw [held, ceiling, ← block, ← pending, blocked_of_scope folded, pending_of_scope folded,
    acceptedRatio_of_scope folded, folded]
  rcases fold_cases config now charged expected state with ⟨blocked, same⟩ |
    ⟨free, under, unblocked, empty, kept⟩ | ⟨free, above, counted, kept, outcome⟩
  · exact .inl ⟨blocked, by rw [same]; rfl, by rw [same], by rw [same]⟩
  · exact .inr (.inl ⟨by rw [free]; rfl, under, by rw [unblocked]; rfl, empty, by rw [kept]⟩)
  · refine .inr (.inr ⟨by rw [free]; rfl, above, counted, by rw [kept], ?_⟩)
    rcases outcome with ⟨unblocked, short⟩ | ⟨confirmed, set, median, enough⟩
    · exact .inl ⟨by rw [unblocked]; rfl, short⟩
    · exact .inr ⟨confirmed, set, median, enough⟩

theorem blocked_eq_false_iff : detector.blocked key = false ↔
    (detector.scopes key).bind (·.block) = none := by
  rw [CostAnomalyDetector.blocked, Option.isSome_eq_false_iff, Option.isNone_iff_eq_none]

theorem streak_of_observes (idle : Bool) (earlier : List Act)
    (observes : act.ratio config key = some ratio) :
    streak idle config key (act :: earlier) =
      if (after config earlier).acceptedRatio key * config.thresholdRatio ≤ ratio then
        streak idle config key earlier + 1
      else 0 := by
  simp [streak, observes]

theorem streak_of_releases (config : CostAnomalyConfig) (earlier : List Act)
    (releases : act.releases key = true) :
    streak false config key (act :: earlier) =
      if (after config earlier).blocked key then 0 else streak false config key earlier := by
  simp [streak, ratio_of_releases releases, releases]

theorem streak_of_quiet (idle : Bool) (earlier : List Act)
    (observes : act.ratio config key = none)
    (holds : act.releases key = false) :
    streak idle config key (act :: earlier) = streak idle config key earlier := by
  simp [streak, observes, holds]

theorem Tracks.observe (h : Tracks config earlier key)
    (observes : act.ratio config key = some ratio) : Tracks config (act :: earlier) key := by
  have counts := streak_of_observes false earlier observes
  rcases after_observes earlier observes with ⟨blocked, block, pending, ceiling⟩ |
    ⟨free, under, unblocked, empty, ceiling⟩ | ⟨free, above, counted, ceiling, outcome⟩
  · have held : (after config (act :: earlier)).blocked key = true := by
      rw [CostAnomalyDetector.blocked, block]
      exact blocked
    constructor
    · intro free
      rw [held] at free
      cases free
    · intro free
      rw [held] at free
      cases free
    · rw [pending, ceiling]
      exact h.above
    · rw [block, ceiling]
      exact h.confirmed
  · rw [if_neg (not_le.mpr under)] at counts
    constructor
    · intro _
      rw [empty, counts]
      rfl
    · intro _
      rw [counts]
      exact Nat.lt_of_lt_of_le Nat.zero_lt_two config.confirms
    · rw [empty]
      intro ratio member
      cases member
    · intro block held
      rw [blocked_eq_false_iff.mp unblocked] at held
      cases held
  · rw [if_pos above] at counts
    have all : ∀ ratio ∈ (after config (act :: earlier)).pending key,
        (after config (act :: earlier)).acceptedRatio key * config.thresholdRatio ≤ ratio := by
      rw [counted, ceiling]
      intro other member
      rcases List.mem_append.mp member with before | here
      · exact h.above other before
      · rw [List.mem_singleton.mp here]
        exact above
    constructor
    · intro _
      rw [counted, counts, List.length_append, h.counted free]
      rfl
    · intro unblocked
      rcases outcome with ⟨-, short⟩ | ⟨block, held, -⟩
      · rw [counts, ← h.counted free]
        exact short
      · rw [blocked_eq_false_iff.mp unblocked] at held
        cases held
    · exact all
    · intro block held
      rcases outcome with ⟨unblocked, -⟩ | ⟨confirmed, set, middle, -⟩
      · rw [blocked_eq_false_iff.mp unblocked] at held
        cases held
      · obtain rfl := Option.some.inj (set.symm.trans held)
        rw [middle]
        exact le_median all (by rw [counted]; simp)

theorem Tracks.release (h : Tracks config earlier key) (releases : act.releases key = true) :
    Tracks config (act :: earlier) key := by
  have counts := streak_of_releases config earlier releases
  cases blocked : (after config earlier).blocked key with
  | true =>
      obtain ⟨block, lifted, -, set, unblocked, empty, -⟩ := act_lifts releases blocked
      have set : (after config (act :: earlier)).scopes key = some lifted := set
      have nothing : (after config (act :: earlier)).pending key = [] :=
        (pending_of_scope set).trans empty
      rw [blocked, if_pos rfl] at counts
      constructor
      · intro _
        rw [nothing, counts]
        rfl
      · intro _
        rw [counts]
        exact Nat.lt_of_lt_of_le Nat.zero_lt_two config.confirms
      · rw [nothing]
        intro ratio member
        cases member
      · intro block held
        rw [set] at held
        simp [unblocked] at held
  | false =>
      have same : after config (act :: earlier) = after config earlier := act_idle releases blocked
      rw [blocked, if_neg (by simp)] at counts
      constructor
      · rw [same, counts]
        exact h.counted
      · rw [same, counts]
        exact h.short
      · rw [same]
        exact h.above
      · rw [same]
        exact h.confirmed

/-- What is about no counted observation and no release of a scope leaves it as it is. -/
theorem after_quiet (earlier : List Act) (observes : act.ratio config key = none)
    (holds : act.releases key = false) :
    (after config (act :: earlier)).scopes key = (after config earlier).scopes key :=
  act_scopes_of_quiet (by rw [after_config]; exact observes) holds

theorem Tracks.quiet (h : Tracks config earlier key) (observes : act.ratio config key = none)
    (holds : act.releases key = false) : Tracks config (act :: earlier) key := by
  have same := after_quiet earlier observes holds
  have counts := streak_of_quiet false earlier observes holds
  constructor
  · rw [CostAnomalyDetector.blocked, CostAnomalyDetector.pending, same, counts]
    exact h.counted
  · rw [CostAnomalyDetector.blocked, same, counts]
    exact h.short
  · rw [CostAnomalyDetector.acceptedRatio, CostAnomalyDetector.pending, same]
    exact h.above
  · rw [CostAnomalyDetector.acceptedRatio, same]
    exact h.confirmed

/-- The history's streak is what the detector counts, after every history. -/
theorem tracks (config : CostAnomalyConfig) (earlier : List Act) (key : String) :
    Tracks config earlier key := by
  induction earlier with
  | nil => exact tracks_fresh
  | cons act earlier ih =>
      cases observes : act.ratio config key with
      | some ratio => exact ih.observe observes
      | none =>
          cases releases : act.releases key with
          | true => exact ih.release releases
          | false => exact ih.quiet observes releases

/-! ## The law -/

/-- A release that lifts a block raises the ceiling by the threshold at least. -/
theorem release_raises (h : Tracks config earlier key) (releases : act.releases key = true)
    (blocked : (after config earlier).blocked key = true) :
    (after config earlier).acceptedRatio key * config.thresholdRatio ≤
      (after config (act :: earlier)).acceptedRatio key := by
  obtain ⟨block, lifted, held, set, -, -, accepted⟩ := act_lifts releases blocked
  have set : (after config (act :: earlier)).scopes key = some lifted := set
  rw [acceptedRatio_of_scope set, accepted]
  exact le_trans (h.confirmed block held) (le_max_right _ _)

theorem law_of_observes (h : Tracks config earlier key)
    (observes : act.ratio config key = some ratio) :
    BlockingLaw false config earlier act key := by
  have holds : act.releases key = false := by
    by_contra releases
    rw [ratio_of_releases (by simpa using releases)] at observes
    cases observes
  have outcome := after_observes earlier observes
  constructor
  · intro free
    rcases outcome with ⟨blocked, -⟩ | ⟨-, under, unblocked, -⟩ |
      ⟨-, above, -, -, ⟨unblocked, short⟩ | ⟨block, held, -, enough⟩⟩
    · rw [free] at blocked
      cases blocked
    · constructor
      · intro blocked
        rw [unblocked] at blocked
        cases blocked
      · rintro ⟨_, same, above, -⟩
        rw [observes] at same
        exact absurd (Option.some.inj same ▸ under) (not_lt.mpr above)
    · constructor
      · intro blocked
        rw [unblocked] at blocked
        cases blocked
      · rintro ⟨_, -, -, complete⟩
        rw [← h.counted free] at complete
        omega
    · constructor
      · intro _
        have counted := h.counted free
        have short := h.short free
        exact ⟨ratio, observes, above, by omega⟩
      · intro _
        rw [CostAnomalyDetector.blocked, held]
        rfl
  · intro blocked
    rcases outcome with ⟨-, same, -⟩ | ⟨free, -⟩ | ⟨free, -⟩
    · have held : (after config (act :: earlier)).blocked key = true := by
        rw [CostAnomalyDetector.blocked, same]
        exact blocked
      rw [held, holds]
      simp
    · rw [free] at blocked
      cases blocked
    · rw [free] at blocked
      cases blocked
  · intro releases
    rw [holds] at releases
    cases releases
  · intro _
    rcases outcome with ⟨-, -, -, kept⟩ | ⟨-, -, -, -, kept⟩ | ⟨-, -, -, kept, -⟩
    · exact kept
    · exact kept
    · exact kept
  · intro uncounted
    rw [observes] at uncounted
    cases uncounted

theorem law_of_releases (h : Tracks config earlier key) (releases : act.releases key = true) :
    BlockingLaw false config earlier act key := by
  constructor
  · intro free
    have same : after config (act :: earlier) = after config earlier := act_idle releases free
    rw [same, free, ratio_of_releases releases]
    simp
  · intro blocked
    obtain ⟨block, lifted, -, set, unblocked, -⟩ := act_lifts releases blocked
    have set : (after config (act :: earlier)).scopes key = some lifted := set
    rw [blocked_of_scope set, unblocked, releases]
    simp
  · intro _ blocked
    exact release_raises h releases blocked
  · intro holds
    rw [releases] at holds
    cases holds
  · intro _ holds
    rw [releases] at holds
    cases holds

theorem law_of_quiet (observes : act.ratio config key = none)
    (holds : act.releases key = false) : BlockingLaw false config earlier act key := by
  have same := after_quiet earlier observes holds
  have held : (after config (act :: earlier)).blocked key = (after config earlier).blocked key := by
    rw [CostAnomalyDetector.blocked, same]
    rfl
  constructor
  · intro free
    rw [held, free, observes]
    simp
  · intro blocked
    rw [held, blocked, holds]
    constructor
    · intro wrong
      cases wrong
    · intro wrong
      cases wrong
  · intro releases
    rw [holds] at releases
    cases releases
  · intro _
    rw [CostAnomalyDetector.acceptedRatio, same]
    rfl
  · intro _ _
    exact same

/-- Providers whose names have no slash never share a scope. -/
theorem costAnomalyScopeKey_inj {provider provider' model model' : String}
    (h : '/' ∉ provider.toList) (h' : '/' ∉ provider'.toList)
    (same : costAnomalyScopeKey provider model = costAnomalyScopeKey provider' model') :
    provider = provider' ∧ model = model' := by
  have lists : provider.toList ++ '/' :: model.toList = provider'.toList ++ '/' :: model'.toList := by
    simpa [costAnomalyScopeKey] using congrArg String.toList same
  have front {name : String} (rest : List Char) (plain : '/' ∉ name.toList) :
      (name.toList ++ '/' :: rest).takeWhile (· != '/') = name.toList := by
    rw [List.takeWhile_append_of_pos fun x member => bne_iff_ne.mpr (ne_of_mem_of_not_mem member plain)]
    simp
  have providers : provider.toList = provider'.toList := by rw [← front _ h, lists, front _ h']
  rw [providers] at lists
  have models := (List.cons.inj (List.append_cancel_left lists)).2
  exact ⟨String.toList_inj.mp providers, String.toList_inj.mp models⟩

/-- The pair that an act is about. -/
def Act.pair : Act → Option (String × String)
  | .observe _ observation => some (observation.provider, observation.model)
  | .release provider model => some (provider, model)
  | _ => none

/-- A charge of twice the declared price. -/
def doubleCharge : Act := .observe 0 ⟨"provider", "model", .finite 2, .finite 1⟩

end AdCoder.Economics
