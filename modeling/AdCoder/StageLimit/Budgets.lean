import AdCoder.StageLimit.Controller

/-!
# Budgets of a stage

Model turns and tool calls come in any order. What a tool call meets is stated
once: it passes while nothing else stops the stage and a tool turn is left
before the reserve, and a submission also inside a reserve that is recorded.
-/

namespace AdCoder.StageLimit

open Foundation ProjectOperations

/-! ## What stops a stage -/

/-- A limit that is not reached, or none. -/
def Below (limit observed : Rat) : Prop := 0 < limit → observed < limit

namespace StageLimitController

variable {c : StageLimitController} {elapsedMs : Rat} {name : Option String}

/-- No limit other than that of tool turns is reached. -/
structure Active (c : StageLimitController) (elapsedMs : Rat) : Prop where
  terminal : c.terminalReason = none
  duration : Below c.limits.maxDurationMs elapsedMs
  modelTurns : Below c.limits.maxModelTurns c.modelTurns
  input : Below c.limits.maxInputTokens c.inputTokens
  cost : Below c.limits.maxCostUsd c.costUsd
  settled : 0 < c.limits.maxCostUsd → c.costInFlight = false

/-- No reserve other than that of tool turns is entered, either. -/
structure Open (c : StageLimitController) (elapsedMs : Rat) : Prop extends Active c elapsedMs where
  durationReserve :
    entered c.limits.maxDurationMs c.limits.finalResponseReserveDurationMs elapsedMs = false
  modelReserve :
    entered c.limits.maxModelTurns c.limits.finalResponseReserveModelTurns c.modelTurns = false
  inputReserve :
    entered c.limits.maxInputTokens c.limits.finalResponseReserveInputTokens c.inputTokens = false

/-- The tool turns are inside their closeout reserve. -/
def InToolReserve (c : StageLimitController) : Prop :=
  entered c.limits.maxToolTurns c.limits.finalResponseReserveToolTurns c.toolTurns = true

/-- A tool turn is left before the reserve. -/
def HasToolTurn (c : StageLimitController) : Prop :=
  c.limits.maxToolTurns ≠ 0 →
    c.toolTurns < c.limits.maxToolTurns - c.limits.finalResponseReserveToolTurns

theorem assertBelow_ok {reason : StageLimitReason} {limit observed : Rat} :
    c.assertBelow elapsedMs reason limit observed = .ok () ↔ Below limit observed := by
  unfold assertBelow Below
  split
  · rename_i reached
    simpa using ⟨reached.1, reached.2⟩
  · rename_i below
    simpa using fun pos => lt_of_not_ge fun le => below ⟨pos, le⟩

theorem assertNotTerminal_ok :
    c.assertNotTerminal elapsedMs = .ok () ↔ c.terminalReason = none := by
  unfold assertNotTerminal
  split <;> simp [*]

theorem assertCostSettled_ok : c.assertCostSettled elapsedMs = .ok () ↔
    (0 < c.limits.maxCostUsd → c.costInFlight = false) := by
  unfold assertCostSettled
  split
  · rename_i flight
    simpa using flight
  · rename_i settled
    simpa using settled

theorem assertActive_ok : c.assertActive elapsedMs = .ok () ↔
    Active c elapsedMs ∧ Below c.limits.maxToolTurns c.toolTurns := by
  simp only [assertActive, check_bind_eq_ok, assertNotTerminal_ok, assertBelow_ok,
    assertCostSettled_ok]
  constructor
  · rintro ⟨terminal, duration, modelTurns, toolTurns, input, cost, settled⟩
    exact ⟨⟨terminal, duration, modelTurns, input, cost, settled⟩, toolTurns⟩
  · rintro ⟨active, toolTurns⟩
    exact ⟨active.terminal, active.duration, active.modelTurns, toolTurns, active.input,
      active.cost, active.settled⟩

/-- A reserve is entered just in case a closeout is found. -/
theorem detectCloseout_eq_none : c.detectCloseout elapsedMs 0 = none ↔
    entered c.limits.maxDurationMs c.limits.finalResponseReserveDurationMs elapsedMs = false ∧
    entered c.limits.maxModelTurns c.limits.finalResponseReserveModelTurns c.modelTurns = false ∧
    entered c.limits.maxInputTokens c.limits.finalResponseReserveInputTokens c.inputTokens = false ∧
    ¬ InToolReserve c := by
  simp only [detectCloseout, InToolReserve, Nat.add_zero]
  split
  · simp [*]
  · split
    · simp [*]
    · split
      · simp [*]
      · split
        · simp [*]
        · simp [*]

/-- Below the limit and outside the reserve there is a tool turn left. -/
theorem hasToolTurn_iff : HasToolTurn c ↔
    Below c.limits.maxToolTurns c.toolTurns ∧ ¬ InToolReserve c := by
  simp only [HasToolTurn, Below, InToolReserve, entered, Bool.and_eq_true, decide_eq_true_eq,
    Rat.natCast_lt_natCast, Rat.natCast_le_natCast]
  have cast : (0 : Rat) < (c.limits.maxToolTurns : Rat) ↔ 0 < c.limits.maxToolTurns := by
    exact_mod_cast Iff.rfl
  rw [cast]
  omega

/-! ## Tool calls -/

/-- A tool call passes while a turn is left and nothing else stops the stage, or as a submission
after a closeout was recorded. -/
theorem admitToolTurn_ok : (c.admitToolTurn elapsedMs name).2 = .ok () ↔
    (Open c elapsedMs ∧ HasToolTurn c) ∨
      (c.assertActive elapsedMs = .ok () ∧ c.closeout.isSome ∧ name.any isSubmissionToolName) := by
  unfold admitToolTurn
  rcases hactive : c.assertActive elapsedMs with error | ⟨⟩
  · simp only [reduceCtorEq, false_iff, false_and, or_false, not_and]
    intro open_ turn
    have := assertActive_ok.mpr ⟨open_.toActive, (hasToolTurn_iff.mp turn).1⟩
    rw [hactive] at this
    cases this
  · obtain ⟨active, below⟩ := assertActive_ok.mp hactive
    rcases hcloseout : c.detectCloseout elapsedMs 0 with _ | closeout
    · obtain ⟨duration, model, input, outside⟩ := detectCloseout_eq_none.mp hcloseout
      have turn : HasToolTurn c := hasToolTurn_iff.mpr ⟨below, outside⟩
      exact iff_of_true rfl (.inl ⟨⟨active, duration, model, input⟩, turn⟩)
    · have closed : ¬ (Open c elapsedMs ∧ HasToolTurn c) := by
        rintro ⟨open_, turn⟩
        have := detectCloseout_eq_none.mpr ⟨open_.durationReserve, open_.modelReserve,
          open_.inputReserve, (hasToolTurn_iff.mp turn).2⟩
        rw [hcloseout] at this
        cases this
      dsimp only
      split
      · rename_i submits
        exact iff_of_true rfl (.inr ⟨rfl, submits⟩)
      · rename_i refused
        simp [closed, refused]

/-- An admitted call is counted, and that is all; a refused one records a closeout at most. -/
theorem admitToolTurn_cases (c : StageLimitController) (elapsedMs : Rat) (name : Option String) :
    c.admitToolTurn elapsedMs name = (c.countToolTurn, .ok ()) ∨
      ∃ closeout refusal,
        c.admitToolTurn elapsedMs name = ({ c with closeout := closeout }, .error refusal) := by
  unfold admitToolTurn
  split
  · exact .inr ⟨c.closeout, _, rfl⟩
  · split
    · exact .inl rfl
    · split
      · exact .inl rfl
      · exact .inr ⟨_, _, rfl⟩

end StageLimitController

/-! ## Runs -/

/-- What a stage meets: requests, their settlements with usage or without, and tool calls. -/
inductive Move where
  | request (elapsedMs : Rat)
  | settle (usage : Option (JsNumber × JsNumber))
  | tool (elapsedMs : Rat) (name : Option String)

/-- A controller with the admissions that it has made: of model turns, of tool calls, and of those
that are no submissions. -/
structure Stage where
  controller : StageLimitController
  modelTurns : Nat
  toolTurns : Nat
  otherTurns : Nat

namespace Stage

def start (limits : StageLimits) (used : StageUsed) : Stage := ⟨.create limits used, 0, 0, 0⟩

def count {ε : Type} : Except ε Unit → Nat
  | .ok _ => 1
  | .error _ => 0

def next (s : Stage) : Move → Stage
  | .request elapsedMs =>
      let (controller, result) := s.controller.request elapsedMs
      { s with controller := controller, modelTurns := s.modelTurns + count result }
  | .settle usage => { s with controller := s.controller.settle usage }
  | .tool elapsedMs name =>
      let (controller, result) := s.controller.admitToolTurn elapsedMs name
      { s with
        controller := controller
        toolTurns := s.toolTurns + count result
        otherTurns := s.otherTurns + if name.any isSubmissionToolName then 0 else count result }

def run (limits : StageLimits) (used : StageUsed) (moves : List Move) : Stage :=
  moves.foldl next (start limits used)

end Stage

/-! ## Submissions -/

/-- Inside the reserve of tool turns a submission is admitted just in case a closeout has been
recorded. -/
theorem submission_admitted_iff (limits : StageLimits) (used : StageUsed) (moves : List Move)
    (elapsedMs : Rat) (name : String) (submission : isSubmissionToolName name = true)
    (active : (Stage.run limits used moves).controller.assertActive elapsedMs = .ok ())
    (reserve : (Stage.run limits used moves).controller.InToolReserve) :
    ((Stage.run limits used moves).controller.admitToolTurn elapsedMs (some name)).2 = .ok () ↔
      (Stage.run limits used moves).controller.closeout.isSome := by
  rw [StageLimitController.admitToolTurn_ok, StageLimitController.hasToolTurn_iff]
  simp [active, reserve, submission]

/-- Four tool turns, the last two in reserve. -/
def reservedLimits : StageLimits :=
  { defaultStageLimits with maxToolTurns := 4, finalResponseReserveToolTurns := 2 }

/-- After a refused call. -/
theorem submission_admitted_afterRefusal :
    ((Stage.run reservedLimits {} [.tool 0 (some "bash"), .tool 1 (some "bash"),
      .tool 2 (some "bash")]).controller.admitToolTurn 3 (some "submit_verdict")).2 = .ok () :=
  (submission_admitted_iff reservedLimits {}
    [.tool 0 (some "bash"), .tool 1 (some "bash"), .tool 2 (some "bash")] 3 "submit_verdict" rfl
    rfl rfl).mpr rfl

/-- The submission is the first call inside the reserve. -/
theorem submission_admitted_refuted : ¬ ∀ (limits : StageLimits) (used : StageUsed)
    (moves : List Move) (elapsedMs : Rat) (name : String), isSubmissionToolName name = true →
    (Stage.run limits used moves).controller.assertActive elapsedMs = .ok () →
    (Stage.run limits used moves).controller.InToolReserve →
    ((Stage.run limits used moves).controller.admitToolTurn elapsedMs (some name)).2 = .ok () := by
  intro admitted
  have first := admitted reservedLimits {} [.tool 0 (some "bash"), .tool 1 (some "bash")] 2
    "submit_verdict" rfl rfl rfl
  cases first

/-! ## Budgets -/

section Budgets

/-- A call of an ordinary tool. -/
def Ordinary (name : Option String) : Prop := name.any isSubmissionToolName = false

/-- How many of the calls are admitted before one is refused. -/
def admittedFirst : StageLimitController → List (Rat × Option String) → Nat
  | _, [] => 0
  | c, (elapsedMs, name) :: rest =>
      match c.admitToolTurn elapsedMs name with
      | (next, .ok _) => admittedFirst next rest + 1
      | (_, .error _) => 0

variable {limits : StageLimits} {used : StageUsed} {c : StageLimitController}

theorem StageLimitController.Open.countToolTurn {elapsedMs : Rat} (h : c.Open elapsedMs) :
    c.countToolTurn.Open elapsedMs :=
  ⟨⟨h.terminal, h.duration, h.modelTurns, h.input, h.cost, h.settled⟩, h.durationReserve,
    h.modelReserve, h.inputReserve⟩

/-- Nothing else stopping the stage, an ordinary call passes while a turn is left. -/
theorem admitToolTurn_ordinary {elapsedMs : Rat} {name : Option String} (ordinary : Ordinary name)
    (open_ : c.Open elapsedMs) :
    (c.admitToolTurn elapsedMs name).2 = .ok () ↔ c.HasToolTurn := by
  rw [StageLimitController.admitToolTurn_ok, ordinary]
  simp [open_]

theorem admittedFirst_of_turn {elapsedMs : Rat} {name : Option String}
    (ordinary : Ordinary name) (open_ : c.Open elapsedMs) (turn : c.HasToolTurn)
    (rest : List (Rat × Option String)) :
    admittedFirst c ((elapsedMs, name) :: rest) = admittedFirst c.countToolTurn rest + 1 := by
  have admitted := (admitToolTurn_ordinary ordinary open_).mpr turn
  rw [admittedFirst]
  rcases c.admitToolTurn_cases elapsedMs name with counted | ⟨closeout, refusal, refused⟩
  · rw [counted]
  · rw [refused] at admitted
    cases admitted

theorem admittedFirst_of_none {elapsedMs : Rat} {name : Option String}
    (ordinary : Ordinary name) (open_ : c.Open elapsedMs) (none : ¬ c.HasToolTurn)
    (rest : List (Rat × Option String)) : admittedFirst c ((elapsedMs, name) :: rest) = 0 := by
  have refusal := fun admitted => none ((admitToolTurn_ordinary ordinary open_).mp admitted)
  rw [admittedFirst]
  rcases c.admitToolTurn_cases elapsedMs name with counted | ⟨closeout, _, refused⟩
  · rw [counted] at refusal
    exact absurd rfl refusal
  · rw [refused]

theorem projected_of_unlimited {elapsedMs : Rat} (unlimited : c.limits.maxToolTurns = 0) :
    (projectRemainingStageBudget (c.snapshot elapsedMs)).toolTurnsBeforeCloseout = none :=
  if_pos unlimited

theorem projected_of_limited {elapsedMs : Rat} (limited : c.limits.maxToolTurns ≠ 0) :
    (projectRemainingStageBudget (c.snapshot elapsedMs)).toolTurnsBeforeCloseout =
      some (c.limits.maxToolTurns - c.limits.finalResponseReserveToolTurns - c.toolTurns) :=
  if_neg limited

/-- As many ordinary calls are admitted in a row as are projected. -/
theorem admittedFirst_eq (elapsedMs : Rat) (calls : List (Rat × Option String))
    (open_ : ∀ call ∈ calls, Ordinary call.2 ∧ c.Open call.1) :
    admittedFirst c calls =
      (projectRemainingStageBudget (c.snapshot elapsedMs)).toolTurnsBeforeCloseout.elim
        calls.length (min calls.length) := by
  induction calls generalizing c with
  | nil =>
      cases (projectRemainingStageBudget (c.snapshot elapsedMs)).toolTurnsBeforeCloseout <;>
        simp [admittedFirst]
  | cons call rest ih =>
      obtain ⟨time, name⟩ := call
      obtain ⟨ordinary, here⟩ := open_ (time, name) List.mem_cons_self
      have later := ih (c := c.countToolTurn) fun call mem =>
        ⟨(open_ call (List.mem_cons_of_mem _ mem)).1,
          (open_ call (List.mem_cons_of_mem _ mem)).2.countToolTurn⟩
      have counted : c.countToolTurn.toolTurns = c.toolTurns + 1 := rfl
      by_cases turn : c.HasToolTurn
      · rw [admittedFirst_of_turn ordinary here turn, later]
        by_cases unlimited : c.limits.maxToolTurns = 0
        · rw [projected_of_unlimited unlimited,
            projected_of_unlimited (c := c.countToolTurn) unlimited]
          rfl
        · have left := turn unlimited
          rw [projected_of_limited unlimited, projected_of_limited (c := c.countToolTurn) unlimited,
            counted]
          simp only [Option.elim_some, List.length_cons, StageLimitController.countToolTurn]
          omega
      · obtain ⟨limited, spent⟩ := Classical.not_imp.mp turn
        rw [admittedFirst_of_none ordinary here turn, projected_of_limited limited,
          Nat.sub_eq_zero_of_le (Nat.le_of_not_lt spent)]
        exact (Nat.min_zero _).symm

/-! ## Counts -/

/-- What every admission has met: the counts are part of the totals, and within the limits. -/
structure Counted (limits : StageLimits) (s : Stage) : Prop where
  same : s.controller.limits = limits
  models : s.modelTurns ≤ s.controller.modelTurns
  tools : s.toolTurns ≤ s.controller.toolTurns
  others : s.otherTurns ≤ s.toolTurns
  modelBound : limits.maxModelTurns ≠ 0 → s.modelTurns ≤ limits.maxModelTurns
  toolBound : limits.maxToolTurns ≠ 0 → s.toolTurns ≤ limits.maxToolTurns
  otherBound : limits.maxToolTurns ≠ 0 →
    s.otherTurns ≤ limits.maxToolTurns - limits.finalResponseReserveToolTurns

theorem below_natCast {limit observed : Nat} (below : Below limit observed) (set : limit ≠ 0) :
    observed < limit := by
  have pos : (0 : Rat) < limit := by exact_mod_cast Nat.pos_of_ne_zero set
  exact_mod_cast below pos

/-- Usage is added to the tokens and the cost. -/
theorem observeUsage_ok {inputTokens costUsd : JsNumber} {observed : StageLimitController}
    (h : c.observeUsage inputTokens costUsd = .ok observed) : ∃ input last cost,
      observed = { c with
        inputTokens := input
        lastInputTokens := last
        costUsd := cost
        costInFlight := false } := by
  unfold StageLimitController.observeUsage at h
  split at h
  · split at h
    · split at h
      · split at h
        · dsimp only at h
          split at h
          · exact ⟨_, _, _, (Except.ok.inj h).symm⟩
          · cases h
        · cases h
      · cases h
    · cases h
  · cases h

/-- A settlement changes neither the limits nor the turns. -/
theorem settle_frame (usage : Option (JsNumber × JsNumber)) :
    (c.settle usage).limits = c.limits ∧ (c.settle usage).modelTurns = c.modelTurns ∧
      (c.settle usage).toolTurns = c.toolTurns := by
  unfold StageLimitController.settle
  split
  · unfold StageLimitController.failUnknownCost
    split <;> exact ⟨rfl, rfl, rfl⟩
  · split
    · rename_i observed heq
      obtain ⟨input, last, cost, rfl⟩ := observeUsage_ok heq
      exact ⟨rfl, rfl, rfl⟩
    · exact ⟨rfl, rfl, rfl⟩

theorem counted_start : Counted limits (Stage.start limits used) :=
  ⟨rfl, Nat.zero_le _, Nat.zero_le _, Nat.le_refl _, fun _ => Nat.zero_le _,
    fun _ => Nat.zero_le _, fun _ => Nat.zero_le _⟩

variable {s : Stage}

theorem prepareCloseout_eq (c : StageLimitController) (elapsedMs : Rat) :
    ∃ closeout, c.prepareCloseout elapsedMs = { c with closeout := closeout } := by
  unfold StageLimitController.prepareCloseout
  split
  · exact ⟨c.closeout, rfl⟩
  · exact ⟨_, rfl⟩

/-- A request is refused, or counted and perhaps told to close out. -/
theorem request_cases (c : StageLimitController) (elapsedMs : Rat) :
    (∃ error, c.request elapsedMs = ({ c with boundaryFailure := some error }, .error error)) ∨
      (c.Active elapsedMs ∧ ∃ inFlight closeout, c.request elapsedMs = ({ c with
        modelTurns := c.modelTurns + 1
        costInFlight := inFlight
        closeout := closeout }, .ok ())) := by
  unfold StageLimitController.request StageLimitController.admitModelTurn
  rcases hactive : c.assertActive elapsedMs with error | ⟨⟩
  · exact .inl ⟨error, rfl⟩
  · obtain ⟨closeout, told⟩ := prepareCloseout_eq { c with
      modelTurns := c.modelTurns + 1
      costInFlight := c.costInFlight || decide (0 < c.limits.maxCostUsd) } elapsedMs
    exact .inr ⟨(StageLimitController.assertActive_ok.mp hactive).1, _, closeout,
      Prod.ext told rfl⟩

theorem Counted.request (counted : Counted limits s) (elapsedMs : Rat) :
    Counted limits (s.next (.request elapsedMs)) := by
  obtain ⟨same, models, tools, others, modelBound, toolBound, otherBound⟩ := counted
  rcases request_cases s.controller elapsedMs with
    ⟨error, refused⟩ | ⟨active, inFlight, closeout, admitted⟩
  · simp only [Stage.next, refused, Stage.count]
    exact ⟨same, models, tools, others, modelBound, toolBound, otherBound⟩
  · have below := active.modelTurns
    rw [same] at below
    simp only [Stage.next, admitted, Stage.count]
    exact ⟨same, Nat.succ_le_succ models, tools, others,
      fun set => Nat.lt_of_le_of_lt models (below_natCast below set), toolBound, otherBound⟩

theorem Counted.settle (counted : Counted limits s) (usage : Option (JsNumber × JsNumber)) :
    Counted limits (s.next (.settle usage)) := by
  obtain ⟨same, models, tools, others, modelBound, toolBound, otherBound⟩ := counted
  obtain ⟨limits', modelTurns, toolTurns⟩ := settle_frame (c := s.controller) usage
  exact ⟨limits'.trans same, Nat.le_trans models modelTurns.ge, Nat.le_trans tools toolTurns.ge,
    others, modelBound, toolBound, otherBound⟩

theorem Counted.tool (counted : Counted limits s) (elapsedMs : Rat) (name : Option String) :
    Counted limits (s.next (.tool elapsedMs name)) := by
  obtain ⟨same, models, tools, others, modelBound, toolBound, otherBound⟩ := counted
  have passes : (s.controller.admitToolTurn elapsedMs name).2 = .ok () ↔ _ :=
    StageLimitController.admitToolTurn_ok
  rcases s.controller.admitToolTurn_cases elapsedMs name with
    admitted | ⟨closeout, refusal, refused⟩
  · rw [admitted] at passes
    have below : Below limits.maxToolTurns s.controller.toolTurns := by
      rcases passes.mp rfl with ⟨-, turn⟩ | ⟨active, -⟩
      · exact same ▸ (StageLimitController.hasToolTurn_iff.mp turn).1
      · exact same ▸ (StageLimitController.assertActive_ok.mp active).2
    simp only [Stage.next, admitted, Stage.count]
    refine ⟨same, models, Nat.succ_le_succ tools, ?_, modelBound, fun set => ?_, fun set => ?_⟩
    · split
      · exact Nat.le_succ_of_le others
      · exact Nat.succ_le_succ others
    · exact Nat.lt_of_le_of_lt tools (below_natCast below set)
    · by_cases submission : name.any isSubmissionToolName = true
      · rw [if_pos submission]
        exact otherBound set
      · -- An ordinary call is admitted before the reserve only.
        have turn : s.controller.HasToolTurn := by
          rcases passes.mp rfl with ⟨-, turn⟩ | ⟨-, -, submits⟩
          · exact turn
          · exact absurd submits submission
        have left := turn (same ▸ set)
        rw [same] at left
        rw [if_neg submission]
        exact Nat.lt_of_le_of_lt (Nat.le_trans others tools) left
  · simp only [Stage.next, refused, Stage.count, ite_self]
    exact ⟨same, models, tools, others, modelBound, toolBound, otherBound⟩

theorem counted_run (limits : StageLimits) (used : StageUsed) (moves : List Move) :
    Counted limits (Stage.run limits used moves) := by
  refine (Run.foldl Stage.next (.start limits used) moves).invariant ?_ counted_start
  rintro s move _ counted rfl
  cases move with
  | request elapsedMs => exact counted.request elapsedMs
  | settle usage => exact counted.settle usage
  | tool elapsedMs name => exact counted.tool elapsedMs name

end Budgets

/-- Budgets that are set are not exceeded, and the projected tool turns are those that ordinary
calls get while nothing else stops the stage. -/
structure BudgetsKept (limits : StageLimits) (s : Stage) : Prop where
  others : limits.maxToolTurns ≠ 0 →
    s.otherTurns ≤ limits.maxToolTurns - limits.finalResponseReserveToolTurns
  tools : limits.maxToolTurns ≠ 0 → s.toolTurns ≤ limits.maxToolTurns
  models : limits.maxModelTurns ≠ 0 → s.modelTurns ≤ limits.maxModelTurns
  projected : ∀ elapsedMs calls,
    (∀ call ∈ calls, Ordinary call.2 ∧ s.controller.Open call.1) →
    admittedFirst s.controller calls =
      (projectRemainingStageBudget (s.controller.snapshot elapsedMs)).toolTurnsBeforeCloseout.elim
        calls.length (min calls.length)

theorem budgets_kept (limits : StageLimits) (used : StageUsed) (moves : List Move) :
    BudgetsKept limits (Stage.run limits used moves) := by
  have counted := counted_run limits used moves
  exact ⟨counted.otherBound, counted.toolBound, counted.modelBound, admittedFirst_eq⟩

/-- Zero read as a limit, and the projection read as if the tool turns were the only budget. -/
structure BudgetsExact (limits : StageLimits) (s : Stage) : Prop where
  others : s.otherTurns ≤ limits.maxToolTurns - limits.finalResponseReserveToolTurns
  tools : s.toolTurns ≤ limits.maxToolTurns
  models : s.modelTurns ≤ limits.maxModelTurns
  projected : ∀ elapsedMs turns,
    (projectRemainingStageBudget (s.controller.snapshot elapsedMs)).toolTurnsBeforeCloseout =
      some turns →
    ∀ calls, (∀ call ∈ calls, Ordinary call.2) →
      admittedFirst s.controller calls = min calls.length turns

/-- One model turn and two tool turns. -/
def singleTurnLimits : StageLimits :=
  { defaultStageLimits with maxModelTurns := 1, maxToolTurns := 2 }

/-- Without a limit a call is admitted; after the last model turn none is. -/
theorem budgets_kept_refuted :
    ¬ BudgetsExact defaultStageLimits (Stage.run defaultStageLimits {} [.tool 0 (some "bash")]) ∧
      ¬ BudgetsExact singleTurnLimits (Stage.run singleTurnLimits {} [.request 0]) := by
  refine ⟨fun exactly => ?_, fun exactly => ?_⟩
  · have tools : 1 ≤ 0 := exactly.tools
    omega
  · have projected := exactly.projected 1 2 rfl [(1, some "bash")]
      (fun call mem => List.mem_singleton.mp mem ▸ rfl)
    have none : admittedFirst (Stage.run singleTurnLimits {} [.request 0]).controller
        [(1, some "bash")] = 0 := rfl
    rw [none] at projected
    cases projected

end AdCoder.StageLimit
