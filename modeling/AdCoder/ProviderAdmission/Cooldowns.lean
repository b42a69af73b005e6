import AdCoder.ProviderAdmission.Recovery
import Mathlib.Tactic.Linarith

/-!
# Cooldowns over runs

Only a rejection moves the deadline of a scope, and it writes a new one without
a look at the old. So a deadline is never moved forward by a later rejection
just in case every rejection brings one that reaches at least as far, and it is
clamped just in case the configured delay is.
-/

namespace AdCoder.ProviderAdmission.ProviderAdmissionController

open Foundation

/-! ## Frames -/

/-- No scope is lost, and no deadline changes. -/
structure SameCooldowns (c d : ProviderAdmissionController) : Prop where
  keys : c.keys ⊆ d.keys
  cooldown : ∀ key, (d.scopes key).cooldownUntil = (c.scopes key).cooldownUntil

/-- A scope that is not known has no deadline. -/
def UnknownCold (c : ProviderAdmissionController) : Prop :=
  ∀ key ∉ c.keys, (c.scopes key).cooldownUntil = none

section Frames

variable {config : ProviderAdmissionConfig} {now : ℚ} {c d e : ProviderAdmissionController}
  {key : String} {id : Nat}

theorem SameCooldowns.refl : SameCooldowns c c := ⟨List.Subset.refl _, fun _ => rfl⟩

theorem SameCooldowns.trans (first : SameCooldowns c d) (second : SameCooldowns d e) :
    SameCooldowns c e :=
  ⟨List.Subset.trans first.keys second.keys,
    fun key => (second.cooldown key).trans (first.cooldown key)⟩

theorem sameCooldowns_setToken (token : AdmissionToken) : SameCooldowns c (c.setToken id token) :=
  ⟨List.Subset.refl _, fun _ => rfl⟩

theorem sameCooldowns_setScope {scope : ScopeRuntime}
    (same : scope.cooldownUntil = (c.scopes key).cooldownUntil) :
    SameCooldowns c (c.setScope key scope) := by
  refine ⟨List.Subset.refl _, fun other => ?_⟩
  rcases eq_or_ne other key with rfl | hne
  · simpa using same
  · simp [Function.update_of_ne hne]

theorem sameCooldowns_grant : SameCooldowns c (c.grant key id) := by
  refine ⟨List.Subset.refl _, fun other => ?_⟩
  rcases eq_or_ne other key with rfl | hne
  · simp
  · simp [Function.update_of_ne hne]

theorem sameCooldowns_grantFrom (rest : List QueueEntry) :
    SameCooldowns c (c.grantFrom key id rest) := by
  have taken : SameCooldowns c (c.setScope key { c.scopes key with queue := rest }) :=
    sameCooldowns_setScope rfl
  exact taken.trans sameCooldowns_grant

theorem sameCooldowns_removeFromQueue : SameCooldowns c (c.removeFromQueue key id) :=
  sameCooldowns_setScope rfl

theorem sameCooldowns_park (priority : AdmissionPriorityClass) :
    SameCooldowns c (c.park now key id priority) := by
  have parked : SameCooldowns c (c.setScope key
      { c.scopes key with queue := (c.scopes key).queue ++ [⟨priority, now, id⟩] }) :=
    sameCooldowns_setScope rfl
  exact parked.trans (sameCooldowns_setToken _)

theorem sameCooldowns_pump : SameCooldowns c (c.pump config now) := by
  have chain : Grants config now c (c.pump config now) := pump_grants c
  generalize c.pump config now = d at chain
  induction chain with
  | refl => exact .refl
  | tail _ last ih =>
      obtain ⟨_, _, _, _, _, _, _, _, rfl⟩ := last
      exact ih.trans (sameCooldowns_grantFrom _)

theorem sameCooldowns_releaseToken : SameCooldowns c (c.releaseToken config now id) := by
  unfold releaseToken
  split
  · exact .refl
  · split
    · have back : SameCooldowns c (c.giveBack id) :=
        (sameCooldowns_setToken _).trans (sameCooldowns_setScope rfl)
      exact back.trans sameCooldowns_pump
    · exact sameCooldowns_setToken _

theorem sameCooldowns_release : SameCooldowns c (c.release config now id) := by
  have marked : SameCooldowns c (c.setToken id { c.tokens id with released := true }) :=
    sameCooldowns_setToken _
  unfold release
  split
  · exact .refl
  · split
    · exact marked.trans (sameCooldowns_setToken _)
    · split
      · exact marked.trans sameCooldowns_releaseToken
      · exact marked

theorem sameCooldowns_resume : SameCooldowns c (c.resume id) := by
  simp only [resume]
  split
  · exact sameCooldowns_setToken _
  · split
    · exact sameCooldowns_removeFromQueue.trans (sameCooldowns_setToken _)
    · exact sameCooldowns_setToken _
  · exact .refl

theorem sameCooldowns_reserve (cold : UnknownCold c) (scopeLabel : String)
    (priority : AdmissionPriorityClass) :
    SameCooldowns c (c.reserve config now key scopeLabel priority).1 := by
  have ensured : SameCooldowns c (c.ensureScope key) := by
    unfold ensureScope
    split
    · exact .refl
    · rename_i unknown
      refine ⟨List.subset_append_left _ _, fun other => ?_⟩
      rcases eq_or_ne other key with rfl | hne
      · simpa using (cold other unknown).symm
      · simp [Function.update_of_ne hne]
  have arrived : SameCooldowns c (c.arrive key scopeLabel priority) :=
    ensured.trans ⟨List.Subset.refl _, fun _ => rfl⟩
  have ready : SameCooldowns c ((c.arrive key scopeLabel priority).pumpWaiting config now key) := by
    unfold pumpWaiting
    split
    · exact arrived
    · exact arrived.trans sameCooldowns_pump
  simp only [reserve]
  split
  · exact ready.trans sameCooldowns_grant
  · split
    · exact ready
    · exact ready.trans (sameCooldowns_park priority)

/-- An event other than a rejection moves no deadline. -/
theorem sameCooldowns_apply (config : ProviderAdmissionConfig) (now : ℚ) (cold : UnknownCold c)
    {event : AdmissionEvent} (other : ∀ key hint, event ≠ .openCooldown key hint) :
    SameCooldowns c (c.apply config (now, event)) := by
  cases event with
  | reserve key scopeLabel priority => exact sameCooldowns_reserve cold scopeLabel priority
  | resume id => exact sameCooldowns_resume
  | settleToken id =>
      rw [apply, settleToken]
      split
      · exact .refl
      · exact sameCooldowns_releaseToken
  | release id => exact sameCooldowns_release
  | releaseToken id => exact sameCooldowns_releaseToken
  | cancel id => exact sameCooldowns_setToken _
  | openCooldown key hint => exact absurd rfl (other key hint)

end Frames

/-! ## Rejections -/

/-- The delay that a rejection brings. -/
def cooldownDelay (config : ProviderAdmissionConfig) : Option Nat → ℚ
  | some hint => min (hint : ℚ) config.cooldownMaxMs
  | none => config.retryDelayMs

/-- The controller after a sequence of events. -/
def reach (config : ProviderAdmissionConfig) (labels : List (ℚ × AdmissionEvent)) :
    ProviderAdmissionController :=
  labels.foldl (apply config) empty

/-- The time of the last rejection of a scope. -/
def lastRejection (key : String) (labels : List (ℚ × AdmissionEvent)) : Option ℚ :=
  (labels.filterMap fun made =>
    match made.2 with
    | .openCooldown scopeKey _ => if scopeKey = key then some made.1 else none
    | _ => none).getLast?

section Rejections

variable {config : ProviderAdmissionConfig} {now : ℚ} {c : ProviderAdmissionController}
  {key other : String} {hint : Option Nat} {before : List (ℚ × AdmissionEvent)}

theorem openCooldown_cooldown (known : key ∈ c.keys) :
    ((c.openCooldown config now key hint).scopes key).cooldownUntil =
      some (now + cooldownDelay config hint) := by
  unfold openCooldown
  rw [if_pos known]
  cases hint <;> simp [cooldownDelay]

theorem openCooldown_apart (hne : other ≠ key) :
    (c.openCooldown config now key hint).scopes other = c.scopes other := by
  unfold openCooldown
  split
  · simp [Function.update_of_ne hne]
  · rfl

theorem openCooldown_keys : (c.openCooldown config now key hint).keys = c.keys := by
  unfold openCooldown
  split <;> rfl

theorem reach_concat (made : ℚ × AdmissionEvent) :
    reach config (before ++ [made]) = (reach config before).apply config made := by
  simp [reach]

theorem unknownCold_reach (labels : List (ℚ × AdmissionEvent)) :
    UnknownCold (reach config labels) := by
  induction labels using List.reverseRecOn with
  | nil => exact fun _ _ => rfl
  | append_singleton before made ih =>
      obtain ⟨now, event⟩ := made
      rw [reach_concat]
      by_cases rejection : ∃ key hint, event = .openCooldown key hint
      · obtain ⟨key, hint, rfl⟩ := rejection
        intro other unknown
        rw [apply, openCooldown_keys] at unknown
        rcases eq_or_ne other key with rfl | hne
        · have same : (reach config before).openCooldown config now other hint =
              reach config before := if_neg unknown
          rw [apply, same]
          exact ih other unknown
        · rw [apply, openCooldown_apart hne]
          exact ih other unknown
      · have same := sameCooldowns_apply config now ih
          fun key hint heq => rejection ⟨key, hint, heq⟩
        intro other unknown
        rw [same.cooldown]
        exact ih other fun known => unknown (same.keys known)

theorem lastRejection_concat_self : lastRejection key (before ++ [(now, .openCooldown key hint)]) =
    some now := by
  simp [lastRejection]

theorem lastRejection_concat_apart {event : AdmissionEvent}
    (apart : ∀ hint, event ≠ .openCooldown key hint) :
    lastRejection key (before ++ [(now, event)]) = lastRejection key before := by
  unfold lastRejection
  rw [List.filterMap_append]
  cases event with
  | openCooldown scopeKey hint =>
      have hne : scopeKey ≠ key := fun heq => apart hint (heq ▸ rfl)
      simp [hne]
  | _ => simp

theorem mem_of_lastRejection {rejected : ℚ} (h : lastRejection key before = some rejected) :
    ∃ made ∈ before, made.1 = rejected := by
  obtain ⟨made, mem, heq⟩ := List.mem_filterMap.mp (List.mem_of_getLast? h)
  refine ⟨made, mem, ?_⟩
  split at heq
  · split at heq
    · exact Option.some.inj heq
    · cases heq
  · cases heq

end Rejections

/-! ## Cooldowns that only grow -/

/-- Along a run no rejection shortens an open cooldown, and no deadline is later than the last
rejection of its scope allows. -/
structure CooldownsKept (config : ProviderAdmissionConfig) (labels : List (ℚ × AdmissionEvent)) :
    Prop where
  monotone : ∀ before now key hint after,
    labels = before ++ (now, .openCooldown key hint) :: after →
    ∀ deadline, ((reach config before).scopes key).cooldownUntil = some deadline → now < deadline →
      ∃ later,
        ((reach config (before ++ [(now, .openCooldown key hint)])).scopes key).cooldownUntil =
          some later ∧ deadline ≤ later
  clamped : ∀ before after, labels = before ++ after → ∀ key deadline,
    ((reach config before).scopes key).cooldownUntil = some deadline →
      ∃ rejected, lastRejection key before = some rejected ∧
        deadline ≤ rejected + config.cooldownMaxMs

/-- What a rejection asks for reaches at least to the open deadline of its scope; without a hint
it is the configured delay, which is within the clamp. -/
def Reaches (config : ProviderAdmissionConfig) (c : ProviderAdmissionController) :
    ℚ × AdmissionEvent → Prop
  | (now, .openCooldown key hint) => key ∈ c.keys →
      (hint = none → (config.retryDelayMs : ℚ) ≤ config.cooldownMaxMs) ∧
        ∀ deadline ∈ (c.scopes key).cooldownUntil, now < deadline →
          deadline ≤ now + (hint.getD config.retryDelayMs : ℕ)
  | _ => True

instance (config : ProviderAdmissionConfig) (c : ProviderAdmissionController)
    (made : ℚ × AdmissionEvent) : Decidable (Reaches config c made) := by
  rcases made with ⟨_, _ | _ | _ | _ | _ | _ | _⟩ <;> unfold Reaches <;> infer_instance

section Kept

variable {config : ProviderAdmissionConfig} {labels before after : List (ℚ × AdmissionEvent)}

theorem known_of_cooldown {key : String} {deadline : ℚ}
    (h : ((reach config before).scopes key).cooldownUntil = some deadline) :
    key ∈ (reach config before).keys := by
  by_contra unknown
  rw [unknownCold_reach before key unknown] at h
  cases h

theorem cooldown_concat_self (now : ℚ) {key : String} (hint : Option Nat)
    (known : key ∈ (reach config before).keys) :
    ((reach config (before ++ [(now, .openCooldown key hint)])).scopes key).cooldownUntil =
      some (now + cooldownDelay config hint) := by
  rw [reach_concat, apply, openCooldown_cooldown known]

theorem cooldown_concat_apart {now : ℚ} {key : String} {event : AdmissionEvent}
    (apart : ∀ hint, event ≠ .openCooldown key hint) :
    ((reach config (before ++ [(now, event)])).scopes key).cooldownUntil =
      ((reach config before).scopes key).cooldownUntil := by
  rw [reach_concat]
  by_cases rejection : ∃ other hint, event = .openCooldown other hint
  · obtain ⟨other, hint, rfl⟩ := rejection
    have hne : key ≠ other := fun heq => apart hint (heq ▸ rfl)
    rw [apply, openCooldown_apart hne]
  · exact (sameCooldowns_apply config now (unknownCold_reach before)
      fun other hint heq => rejection ⟨other, hint, heq⟩).cooldown key

/-- While every rejection is within the clamp, so is every deadline. -/
theorem clamped_of_reaches
    (reaches : ∀ front made rest, before = front ++ made :: rest →
      Reaches config (reach config front) made)
    {key : String} {deadline : ℚ}
    (h : ((reach config before).scopes key).cooldownUntil = some deadline) :
    ∃ rejected, lastRejection key before = some rejected ∧
      deadline ≤ rejected + config.cooldownMaxMs := by
  induction before using List.reverseRecOn generalizing deadline with
  | nil => cases h
  | append_singleton before made ih =>
      obtain ⟨now, event⟩ := made
      have earlier : ∀ front made rest, before = front ++ made :: rest →
          Reaches config (reach config front) made := by
        rintro front made rest rfl
        exact reaches front made (rest ++ [(now, event)]) (by simp)
      by_cases here : ∃ hint, event = .openCooldown key hint
      · obtain ⟨hint, rfl⟩ := here
        have known := known_of_cooldown h
        rw [reach_concat, apply, openCooldown_keys] at known
        rw [cooldown_concat_self now hint known] at h
        obtain rfl := Option.some.inj h
        refine ⟨now, lastRejection_concat_self, ?_⟩
        have within : cooldownDelay config hint ≤ config.cooldownMaxMs := by
          cases hint with
          | some hint => exact min_le_right _ _
          | none => exact (reaches before _ [] rfl known).1 rfl
        linarith
      · have apart : ∀ hint, event ≠ .openCooldown key hint := fun hint heq => here ⟨hint, heq⟩
        rw [cooldown_concat_apart apart] at h
        rw [lastRejection_concat_apart apart]
        exact ih earlier h

end Kept

/-- Cooldowns are monotone and clamped just in case every rejection reaches to the open deadline
and a missing hint stands for a delay within the clamp. -/
theorem cooldowns_kept_iff (config : ProviderAdmissionConfig) (labels : List (ℚ × AdmissionEvent))
    (clock : (labels.map Prod.fst).Pairwise (· ≤ ·)) :
    CooldownsKept config labels ↔
      ∀ before made after, labels = before ++ made :: after →
        Reaches config (reach config before) made := by
  constructor
  · rintro kept before ⟨now, event⟩ after split
    cases event with
    | openCooldown key hint =>
        intro known
        have opened := cooldown_concat_self now hint known
        refine ⟨?_, fun deadline open_ early => ?_⟩
        · rintro rfl
          obtain ⟨rejected, last, bound⟩ := kept.clamped
            (before ++ [(now, .openCooldown key none)]) after (by simpa using split) key _ opened
          rw [lastRejection_concat_self] at last
          obtain rfl := Option.some.inj last
          simp only [cooldownDelay] at bound
          linarith
        · obtain ⟨later, moved, grown⟩ :=
            kept.monotone before now key hint after split deadline open_ early
          rw [opened] at moved
          obtain rfl := Option.some.inj moved
          cases hint with
          | none => exact grown
          | some hint =>
              have shorter : min (hint : ℚ) config.cooldownMaxMs ≤ hint := min_le_left _ _
              simp only [cooldownDelay] at grown
              simp only [Option.getD_some]
              linarith
    | _ => trivial
  · intro reaches
    have clamped : ∀ before after, labels = before ++ after → ∀ key deadline,
        ((reach config before).scopes key).cooldownUntil = some deadline →
          ∃ rejected, lastRejection key before = some rejected ∧
            deadline ≤ rejected + config.cooldownMaxMs := by
      rintro before after rfl key deadline h
      refine clamped_of_reaches ?_ h
      rintro front made rest rfl
      exact reaches front made (rest ++ after) (by simp)
    refine ⟨fun before now key hint after split deadline open_ early => ?_, clamped⟩
    have known := known_of_cooldown open_
    refine ⟨_, cooldown_concat_self _ _ known, ?_⟩
    have far := (reaches before _ after split known).2 deadline open_ early
    cases hint with
    | none => exact far
    | some hint =>
        -- The clock has not gone back since the last rejection, which was clamped.
        obtain ⟨rejected, last, bound⟩ := clamped before _ split key deadline open_
        obtain ⟨made, mem, rfl⟩ := mem_of_lastRejection last
        have ordered : made.1 ≤ now := by
          rw [split, List.map_append, List.pairwise_append] at clock
          exact clock.2.2 made.1 (List.mem_map_of_mem mem) now (by simp)
        have within : deadline - now ≤ min (hint : ℚ) config.cooldownMaxMs := by
          refine le_min ?_ (by linarith)
          simp only [Option.getD_some] at far
          linarith
        simp only [cooldownDelay]
        linarith

/-- Two calls of one scope are in flight, and the second rejection has the longer hint. -/
def prolongedRun : List (ℚ × AdmissionEvent) :=
  [(0, .reserve "scope" "label" .interactive), (0, .reserve "scope" "label" .background),
   (1, .openCooldown "scope" (some 4000)), (2, .openCooldown "scope" (some 5000))]

theorem cooldowns_kept_prolongedRun : CooldownsKept twoPermits prolongedRun ∧
    ((reach twoPermits prolongedRun).scopes "scope").cooldownUntil = some 5002 :=
  ⟨(cooldowns_kept_iff twoPermits prolongedRun (by decide +kernel)).mpr
    fun _ _ _ split => of_decide_eq_true (Run.check_of_checked
      (by decide +kernel : Run.checked (apply twoPermits)
        (fun c made => decide (Reaches twoPermits c made)) empty prolongedRun = true) split),
    by decide +kernel⟩

/-- The second rejection has the shorter hint. -/
def shortenedRun : List (ℚ × AdmissionEvent) :=
  [(0, .reserve "scope" "label" .interactive), (0, .reserve "scope" "label" .background),
   (1, .openCooldown "scope" (some 10000)), (2, .openCooldown "scope" (some 1))]

/-- A cooldown that is open until 10001 then ends at 3. -/
theorem cooldowns_kept_refuted : ¬ CooldownsKept twoPermits shortenedRun := by
  intro kept
  have before : ((reach twoPermits (shortenedRun.take 3)).scopes "scope").cooldownUntil =
      some 10001 := by decide +kernel
  have after : ((reach twoPermits
      (shortenedRun.take 3 ++ [(2, .openCooldown "scope" (some 1))])).scopes
        "scope").cooldownUntil = some 3 := by decide +kernel
  obtain ⟨later, moved, grown⟩ :=
    kept.monotone (shortenedRun.take 3) 2 "scope" (some 1) [] rfl 10001 before (by norm_num)
  rw [after] at moved
  obtain rfl := Option.some.inj moved
  norm_num at grown

end AdCoder.ProviderAdmission.ProviderAdmissionController
