import AdCoder.ProviderAdmission.Waiters

/-!
# Work conservation

Whatever grants or queues a request, or gives a permit back, leaves no owned
entry beside a permit that it could have. A call on a token whose permit has
gone back does nothing, so it also leaves a cooldown that has expired unnoticed.
-/

namespace AdCoder.ProviderAdmission.ProviderAdmissionController

open Foundation

section Drains

variable {config : ProviderAdmissionConfig} {now : ℚ} {c : ProviderAdmissionController}
  {key : String} {id : Nat}

/-- No caller waits in the queue of a scope. -/
def NobodyWaits (c : ProviderAdmissionController) (key : String) : Prop :=
  ∀ entry ∈ (c.scopes key).queue, (c.tokens entry.token).unowned = true

/-- Once the queue is served, a free permit means that nobody waits. -/
theorem nobodyWaits_ready (scopeLabel : String) (priority : AdmissionPriorityClass)
    (free : canGrant config now (((c.arrive key scopeLabel priority).pumpWaiting config now
      key).scopes key) = true) :
    NobodyWaits ((c.arrive key scopeLabel priority).pumpWaiting config now key) key := by
  unfold pumpWaiting at free ⊢
  split
  · rename_i empty
    rw [List.isEmpty_iff] at empty
    intro entry mem
    rw [empty] at mem
    cases mem
  · rename_i waits
    rw [if_neg waits] at free
    have known : key ∈ (c.arrive key scopeLabel priority).keys := mem_ensureScope
    have drained : Drained config now ((c.arrive key scopeLabel priority).pump config now) key :=
      pump_drained known
    rcases drained with held | unowned
    · cases held.symm.trans free
    · exact unowned

theorem markAdmitted_unowned (token : AdmissionToken) :
    token.markAdmitted.unowned = token.unowned := rfl

theorem NobodyWaits.grant (nobody : NobodyWaits c key) : NobodyWaits (c.grant key id) key := by
  intro entry mem
  rw [grant_scopes, Function.update_self] at mem
  have unowned := nobody entry mem
  rcases eq_or_ne entry.token id with heq | hne
  · rw [grant_tokens, heq, Function.update_self, markAdmitted_unowned, ← heq]
    exact unowned
  · rw [grant_tokens, Function.update_of_ne hne]
    exact unowned

/-- A request is parked only while its scope cannot grant. -/
theorem canGrant_park (priority : AdmissionPriorityClass) :
    canGrant config now ((c.park now key id priority).scopes key) =
      canGrant config now (c.scopes key) := by
  simp [canGrant]

theorem drained_reserve (scopeLabel : String) (priority : AdmissionPriorityClass) :
    Drained config now (c.reserve config now key scopeLabel priority).1 key := by
  rcases reserve_cases config now c key scopeLabel priority with
    ⟨free, heq⟩ | ⟨held, -, heq⟩ | ⟨held, -, heq⟩
  · rw [heq]
    exact .inr (nobodyWaits_ready scopeLabel priority free).grant
  · rw [heq]
    exact .inl held
  · rw [heq]
    exact .inl ((canGrant_park priority).trans held)

theorem drained_releaseToken (known : (c.tokens id).scopeKey ∈ c.keys)
    (unsettled : (c.tokens id).settled = false) :
    Drained config now (c.releaseToken config now id) (c.tokens id).scopeKey := by
  rw [releaseToken_of_known unsettled known]
  exact pump_drained known

/-- A request that is granted on its arrival finds nobody waiting. -/
theorem nobodyWaits_of_granted {scopeLabel : String} {priority : AdmissionPriorityClass}
    (granted : (c.reserve config now key scopeLabel priority).2 = .granted id) :
    NobodyWaits (c.reserve config now key scopeLabel priority).1 key := by
  by_cases free : canGrant config now (((c.arrive key scopeLabel priority).pumpWaiting config now
      key).scopes key) = true
  · simp only [reserve, if_pos free]
    exact (nobodyWaits_ready scopeLabel priority free).grant
  · simp only [reserve, if_neg free] at granted
    split at granted <;> cases granted

end Drains

/-- After a request arrives, and after a permit goes back, its scope holds no owned waiting entry
beside a free permit outside a cooldown; a request is granted on its arrival only when nobody
waits. -/
structure WorkConserving (config : ProviderAdmissionConfig) (now : ℚ)
    (c : ProviderAdmissionController) : Prop where
  reserve : ∀ key scopeLabel priority,
    Drained config now (c.reserve config now key scopeLabel priority).1 key
  direct : ∀ key scopeLabel priority id,
    (c.reserve config now key scopeLabel priority).2 = .granted id →
      NobodyWaits (c.reserve config now key scopeLabel priority).1 key
  releaseToken : ∀ id, (c.tokens id).scopeKey ∈ c.keys → (c.tokens id).settled = false →
    Drained config now (c.releaseToken config now id) (c.tokens id).scopeKey
  settleToken : ∀ id, (c.tokens id).scopeKey ∈ c.keys → (c.tokens id).released = false →
    (c.tokens id).settled = false →
    Drained config now (c.settleToken config now id) (c.tokens id).scopeKey

theorem work_conserved (config : ProviderAdmissionConfig) (now : ℚ)
    (c : ProviderAdmissionController) : WorkConserving config now c where
  reserve _ := drained_reserve
  direct _ _ _ _ := nobodyWaits_of_granted
  releaseToken _ := drained_releaseToken
  settleToken id known unreleased unsettled := by
    rw [ProviderAdmissionController.settleToken, if_neg (by simp [unreleased, unsettled])]
    exact drained_releaseToken known unsettled

/-- A second settlement of the first call, after the cooldown: the second caller still waits. -/
theorem work_conserved_refuted :
    ¬ ∀ labels c, Run (Guarded (Steps defaultProviderAdmissionConfig) ByCaller) .empty labels c →
      ∀ now id, c.Granted id → Drained defaultProviderAdmissionConfig now
        (c.settleToken defaultProviderAdmissionConfig now id) (c.tokens id).scopeKey := by
  intro conserved
  have run := Run.guarded_foldl (fun _ _ => of_decide_eq_true)
    (by decide +kernel : Run.checked (apply defaultProviderAdmissionConfig)
      (fun c made => decide (c.ByCaller made)) empty strandedRun = true)
  have drained := conserved _ _ run 2000 0 (by decide +kernel)
  have here : ((strandedRun.foldl (apply defaultProviderAdmissionConfig) empty).tokens
      0).scopeKey = "scope" := by decide +kernel
  have left : ¬ Drained defaultProviderAdmissionConfig 2000
      ((strandedRun.foldl (apply defaultProviderAdmissionConfig) empty).settleToken
        defaultProviderAdmissionConfig 2000 0) "scope" := by
    unfold Drained
    decide +kernel
  exact left (here ▸ drained)

end AdCoder.ProviderAdmission.ProviderAdmissionController
