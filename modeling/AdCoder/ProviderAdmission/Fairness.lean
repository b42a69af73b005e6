import AdCoder.Foundation.Lists
import AdCoder.ProviderAdmission.Permits
import Mathlib.Data.List.MinMax
import Mathlib.Data.Prod.Lex
import Mathlib.Tactic.Linarith

/-!
# Fairness of the scheduler

The scheduler takes the first least entry, by class and then by time, of those
it does not pass over. Aging promotes an entry to the interactive class, so it
bounds the wait of an entry only where no class ranks before the interactive one.
-/

namespace AdCoder.ProviderAdmission

open Foundation

section Scheduler

variable (config : ProviderAdmissionConfig) (now : ℚ) (tokens : Nat → AdmissionToken)

/-- The class of an entry, then the time since which it waits. -/
def precedence (entry : QueueEntry) : ℕ ×ₗ ℚ :=
  toLex (config.priorityClasses.idxOf (effectivePriority config now entry), entry.enqueuedAt)

/-- The entries that the scheduler does not pass over. -/
def eligible (queue : List QueueEntry) : List QueueEntry :=
  queue.filter fun entry =>
    !skips config now tokens (anyInteractiveWaiting config now tokens queue) entry

def candidateOf (queue : List QueueEntry) (entry : QueueEntry) : Candidate :=
  ⟨config.priorityClasses.idxOf (effectivePriority config now entry), entry.enqueuedAt,
    queue.idxOf entry⟩

variable {config now tokens}

theorem beatenBy_some {best : Candidate} {rank : Nat} {enqueuedAt : ℚ} :
    Candidate.beatenBy (some best) rank enqueuedAt = true ↔
      rank < best.rank ∨ rank = best.rank ∧ enqueuedAt < best.enqueuedAt := by
  simp [Candidate.beatenBy]

theorem beatenBy_candidateOf {queue : List QueueEntry} {best entry : QueueEntry} :
    Candidate.beatenBy (some (candidateOf config now queue best))
        (config.priorityClasses.idxOf (effectivePriority config now entry)) entry.enqueuedAt =
          true ↔
      precedence config now entry < precedence config now best := by
  rw [beatenBy_some, precedence, precedence, Prod.Lex.toLex_lt_toLex]
  exact Iff.rfl

/-- The loop over the rest of a queue keeps the first least entry. -/
theorem bestCandidate_argmin (config : ProviderAdmissionConfig) (now : ℚ)
    (tokens : Nat → AdmissionToken) (interactiveWaiting : Bool) {skipped : QueueEntry → Bool}
    (hskipped : skipped = skips config now tokens interactiveWaiting)
    (before rest : List QueueEntry) :
    bestCandidate config now tokens interactiveWaiting
        (((before.filter (!skipped ·)).argmin (precedence config now)).map
          (candidateOf config now before)) before.length rest =
      (((before ++ rest).filter (!skipped ·)).argmin (precedence config now)).map
        (candidateOf config now (before ++ rest)) := by
  induction rest generalizing before with
  | nil => simp [bestCandidate]
  | cons entry rest ih =>
      have whole := ih (before ++ [entry])
      rw [List.append_assoc, List.singleton_append, List.length_append, List.length_singleton]
        at whole
      rw [bestCandidate, ← whole]
      congr 1
      have known : ∀ best ∈ (before.filter (!skipped ·)).argmin (precedence config now),
          candidateOf config now (before ++ [entry]) best = candidateOf config now before best := by
        intro best hbest
        have mem := List.mem_of_mem_filter (List.argmin_mem hbest)
        simp only [candidateOf, List.idxOf_append_of_mem mem]
      rw [← hskipped]
      by_cases skip : skipped entry = true
      · have here : (before ++ [entry]).filter (!skipped ·) = before.filter (!skipped ·) := by
          simp [skip]
        rw [here, if_pos skip]
        exact (Option.map_congr known).symm
      · have here : (before ++ [entry]).filter (!skipped ·) =
            before.filter (!skipped ·) ++ [entry] := by
          simp [skip]
        rw [here, if_neg skip, List.argmin_concat]
        rcases hbest : (before.filter (!skipped ·)).argmin (precedence config now) with _ | best
        · have fresh : entry ∉ before := by
            intro mem
            have : entry ∈ before.filter (!skipped ·) := by simp [mem, skip]
            rw [List.argmin_eq_none.mp hbest] at this
            cases this
          simp [Candidate.beatenBy, candidateOf, List.idxOf_append_of_notMem fresh]
        · by_cases less : precedence config now entry < precedence config now best
          · have fresh : entry ∉ before := by
              intro mem
              have : entry ∈ before.filter (!skipped ·) := by simp [mem, skip]
              exact not_lt_of_ge (List.le_of_mem_argmin this hbest) less
            simp only [Option.map_some]
            rw [if_pos (beatenBy_candidateOf.mpr less)]
            simp [less, candidateOf, List.idxOf_append_of_notMem fresh]
          · simp only [Option.map_some]
            rw [if_neg fun beaten => less (beatenBy_candidateOf.mp beaten)]
            simp [less, known best hbest]

/-- The scheduler chooses the first least entry of those that are eligible. -/
theorem dequeueCandidate_eq (queue : List QueueEntry) :
    dequeueCandidate config now tokens queue =
      ((eligible config now tokens queue).argmin (precedence config now)).map
        fun entry => (entry.token, queue.erase entry) := by
  have best := bestCandidate_argmin config now tokens
    (anyInteractiveWaiting config now tokens queue) rfl [] queue
  simp only [List.filter_nil, List.argmin_nil, Option.map_none, List.length_nil,
    List.nil_append] at best
  rw [dequeueCandidate, best, eligible]
  rcases hchosen : (queue.filter (!skips config now tokens
      (anyInteractiveWaiting config now tokens queue) ·)).argmin (precedence config now) with
    _ | entry
  · rfl
  · have mem := List.mem_of_mem_filter (List.argmin_mem hchosen)
    have here : queue[queue.idxOf entry]? = some entry := by
      rw [List.getElem?_eq_getElem (List.idxOf_lt_length_iff.mpr mem), List.getElem_idxOf]
    simp [candidateOf, here, List.eraseIdx_idxOf_eq_erase]

/-! ## Fairness -/

/-- An entry with a waiting caller. -/
def Owned (tokens : Nat → AdmissionToken) (entry : QueueEntry) : Prop :=
  (tokens entry.token).unowned = false

/-- An entry that has waited `maxWaitMs`. -/
def Aged (config : ProviderAdmissionConfig) (now : ℚ) (entry : QueueEntry) : Prop :=
  config.maxWaitMs ≤ now - entry.enqueuedAt

/-- Enqueued earlier, in time or else in the queue. -/
def Earlier (queue : List QueueEntry) (a b : QueueEntry) : Prop :=
  a.enqueuedAt < b.enqueuedAt ∨
    a.enqueuedAt = b.enqueuedAt ∧ queue.idxOf a < queue.idxOf b

/-- No entry is chosen before an owned one that was enqueued earlier and has aged, and some entry
is chosen while an owned one waits. -/
structure AgingFair (config : ProviderAdmissionConfig) (now : ℚ) (tokens : Nat → AdmissionToken)
    (queue : List QueueEntry) : Prop where
  aged : ∀ id rest, dequeueCandidate config now tokens queue = some (id, rest) →
    ∃ entry ∈ queue, entry.token = id ∧ rest = queue.erase entry ∧
      ∀ other ∈ queue, Owned tokens other → Aged config now other → ¬ Earlier queue other entry
  conserving : dequeueCandidate config now tokens queue = none →
    ∀ entry ∈ queue, ¬ Owned tokens entry

/-- A class order that prefers fresh background work to aged work. -/
def ProviderAdmissionConfig.backgroundFirst (config : ProviderAdmissionConfig) : Prop :=
  config.priorityClasses.idxOf .background < config.priorityClasses.idxOf .interactive

section Choices

variable {queue : List QueueEntry} {entry other : QueueEntry}

theorem effectivePriority_of_aged (aged : Aged config now entry) :
    effectivePriority config now entry = .interactive := if_pos aged

theorem effectivePriority_of_fresh (fresh : ¬ Aged config now entry) :
    effectivePriority config now entry = entry.priority := if_neg fresh

theorem mem_eligible : entry ∈ eligible config now tokens queue ↔ entry ∈ queue ∧
    Owned tokens entry ∧ (effectivePriority config now entry = .title →
      anyInteractiveWaiting config now tokens queue = false) := by
  simp [eligible, skips, Owned, List.mem_filter, imp_iff_not_or]

theorem eligible_of_ne_title (mem : entry ∈ queue) (owned : Owned tokens entry)
    (notTitle : effectivePriority config now entry ≠ .title) :
    entry ∈ eligible config now tokens queue :=
  mem_eligible.mpr ⟨mem, owned, fun title => absurd title notTitle⟩

theorem interactiveWaiting_of_aged (mem : entry ∈ queue) (owned : Owned tokens entry)
    (aged : Aged config now entry) : anyInteractiveWaiting config now tokens queue = true := by
  refine List.any_eq_true.mpr ⟨entry, mem, ?_⟩
  rw [effectivePriority_of_aged aged, owned]
  rfl

theorem ProviderAdmissionConfig.rank_inj {a b : AdmissionPriorityClass} :
    config.priorityClasses.idxOf a = config.priorityClasses.idxOf b ↔ a = b := by
  have all : a ∈ config.priorityClasses := by
    rw [config.classes_perm.mem_iff]
    cases a <;> decide
  exact List.idxOf_inj all

/-- Beside an aged entry the scheduler chooses interactive work or fresh background work. -/
theorem chosen_class (chosen : entry ∈ eligible config now tokens queue) (mem : other ∈ queue)
    (owned : Owned tokens other) (aged : Aged config now other) :
    effectivePriority config now entry = .interactive ∨
      (effectivePriority config now entry = .background ∧ entry.priority = .background ∧
        ¬ Aged config now entry) := by
  have waiting := interactiveWaiting_of_aged mem owned aged
  have notTitle : effectivePriority config now entry ≠ .title := by
    intro title
    rw [(mem_eligible.mp chosen).2.2 title] at waiting
    cases waiting
  by_cases old : Aged config now entry
  · exact .inl (effectivePriority_of_aged old)
  · rw [effectivePriority_of_fresh old] at notTitle ⊢
    cases hclass : entry.priority with
    | interactive => exact .inl rfl
    | background => exact .inr ⟨rfl, rfl, old⟩
    | title => exact absurd hclass notTitle

theorem erase_inj {a b : QueueEntry} (ha : a ∈ queue) (hb : b ∈ queue)
    (h : queue.erase a = queue.erase b) : a = b := by
  have both : ([a] ++ queue.erase a).Perm ([b] ++ queue.erase a) := by
    refine (List.perm_cons_erase ha).symm.trans ?_
    rw [h]
    exact List.perm_cons_erase hb
  exact List.singleton_perm_singleton.mp ((List.perm_append_right_iff _).mp both)

end Choices

/-- Aging is fair unless a fresh background entry meets an aged one under a class order with
background before interactive. -/
theorem aging_fair_iff (config : ProviderAdmissionConfig) (now : ℚ)
    (tokens : Nat → AdmissionToken) (queue : List QueueEntry) :
    AgingFair config now tokens queue ↔
      ¬ (config.backgroundFirst ∧ (∃ entry ∈ queue, Owned tokens entry ∧ Aged config now entry) ∧
        ∃ entry ∈ queue, Owned tokens entry ∧ entry.priority = .background ∧
          ¬ Aged config now entry) := by
  constructor
  · rintro fair ⟨first, ⟨old, hold, ownedOld, aged⟩, fresh, hfresh, ownedFresh, background, young⟩
    rcases hchosen : (eligible config now tokens queue).argmin (precedence config now) with _ | best
    · refine fair.conserving ?_ old hold ownedOld
      rw [dequeueCandidate_eq, hchosen]
      rfl
    · have mem := (mem_eligible.mp (List.argmin_mem hchosen)).1
      obtain ⟨entry, hentry, -, heq, none⟩ := fair.aged best.token (queue.erase best) (by
        rw [dequeueCandidate_eq, hchosen]
        rfl)
      obtain rfl := erase_inj mem hentry heq
      have class_fresh := (effectivePriority_of_fresh young).trans background
      have least := List.le_of_mem_argmin
        (eligible_of_ne_title hfresh ownedFresh (class_fresh ▸ by decide)) hchosen
      rcases chosen_class (List.argmin_mem hchosen) hold ownedOld aged with
        interactive | ⟨-, -, youngBest⟩
      · rw [precedence, precedence, interactive, class_fresh, Prod.Lex.toLex_le_toLex] at least
        have := first
        unfold ProviderAdmissionConfig.backgroundFirst at this
        omega
      · refine none old hold ownedOld aged (.inl ?_)
        unfold Aged at aged youngBest
        linarith
  · intro apart
    refine ⟨fun id rest chosen => ?_, fun nothing entry mem owned => ?_⟩
    · rw [dequeueCandidate_eq, Option.map_eq_some_iff] at chosen
      obtain ⟨best, hchosen, heq⟩ := chosen
      obtain ⟨rfl, rfl⟩ := Prod.mk.inj heq
      have mem := mem_eligible.mp (List.argmin_mem hchosen)
      refine ⟨best, mem.1, rfl, rfl, fun other hother owned aged earlier => ?_⟩
      have class_other := effectivePriority_of_aged aged
      have hother' : other ∈ eligible config now tokens queue :=
        eligible_of_ne_title hother owned (class_other ▸ by decide)
      have least := List.le_of_mem_argmin hother' hchosen
      rcases chosen_class (List.argmin_mem hchosen) hother owned aged with
        interactive | ⟨class_best, background, young⟩
      · -- Both are interactive, and the chosen one is the first of the oldest.
        rw [precedence, precedence, interactive, class_other, Prod.Lex.toLex_le_toLex] at least
        have before : best.enqueuedAt ≤ other.enqueuedAt := by
          rcases least with less | ⟨-, le⟩
          · exact absurd less (lt_irrefl _)
          · exact le
        rcases earlier with time | ⟨same, position⟩
        · exact not_lt_of_ge before time
        · have tie : precedence config now other ≤ precedence config now best := by
            rw [precedence, precedence, interactive, class_other, same]
          have := idxOf_le_of_filter
            (by simpa using (List.mem_filter.mp (List.argmin_mem hchosen)).2)
            (by simpa using (List.mem_filter.mp hother').2)
            (List.index_of_argmin hchosen hother' tie)
          omega
      · refine apart ⟨?_, ⟨other, hother, owned, aged⟩, best, mem.1, mem.2.1, background, young⟩
        rw [precedence, precedence, class_best, class_other, Prod.Lex.toLex_le_toLex] at least
        rcases least with less | ⟨same, -⟩
        · exact less
        · exact absurd (ProviderAdmissionConfig.rank_inj.mp same) (by decide)
    · have := dequeueCandidate_none nothing entry mem
      rw [owned] at this
      cases this

end Scheduler

/-- The default configuration, with a short bound and background work first. -/
def backgroundFirstConfig : ProviderAdmissionConfig :=
  { defaultProviderAdmissionConfig with
    maxWaitMs := 50
    priorityClasses := [.background, .interactive, .title]
    maxWait_pos := by decide
    classes_perm := by decide }

/-- A title that has waited twice the bound, and background work that has just arrived. -/
def agedTitleQueue : List QueueEntry := [⟨.title, 0, 0⟩, ⟨.background, 100, 1⟩]

/-- The background work is chosen. -/
theorem aging_fair_refuted :
    ¬ AgingFair backgroundFirstConfig 100 (fun _ => {}) agedTitleQueue := by
  intro fair
  have chosen : dequeueCandidate backgroundFirstConfig 100 (fun _ => {}) agedTitleQueue =
      some (1, [⟨.title, 0, 0⟩]) := by decide +kernel
  obtain ⟨entry, mem, token, -, none⟩ := fair.aged 1 _ chosen
  obtain rfl : entry = ⟨.background, 100, 1⟩ := by
    rcases List.mem_cons.mp mem with rfl | later
    · cases token
    · exact List.mem_singleton.mp later
  refine none ⟨.title, 0, 0⟩ List.mem_cons_self rfl ?_ (.inl ?_)
  · show (50 : ℚ) ≤ 100 - 0
    norm_num
  · show (0 : ℚ) < 100
    norm_num

end AdCoder.ProviderAdmission
