import AdCoder.ProviderAdmission.AdmissionRuns

/-!
# Cancelling a queued request

A cancellation marks the token at once; its entry leaves the queue when the
continuation of its call runs. The scheduler does not pass cancelled entries
over, so what a pump makes of a queue in between decides whether only the
cancelled request goes.
-/

namespace AdCoder.ProviderAdmission.ProviderAdmissionController

open Foundation

variable {config : ProviderAdmissionConfig} {now : ℚ} {c d : ProviderAdmissionController}
  {key other : String} {id : Nat}

/-- The calls on queued and on granted tokens. -/
def Interleaves (c : ProviderAdmissionController) : ℚ × AdmissionEvent → Prop
  | (_, .settleToken id) => c.Granted id
  | (_, .releaseToken id) => c.Granted id
  | (_, .release id) => c.Granted id ∨ c.Queued id
  | (_, .cancel id) => c.Queued id
  | (_, .resume id) => id < c.issued
  | (_, .reserve ..) => True
  | (_, .openCooldown ..) => True

/-- A cancelled entry that is still queued meets no request of its scope, and no pump
that could grant from its queue. -/
def Undisturbed (config : ProviderAdmissionConfig) (c : ProviderAdmissionController) :
    ℚ × AdmissionEvent → Prop
  | (now, .reserve key _ _) => (∀ id ∈ c.waiting key, (c.tokens id).state ≠ .cancelled) ∧
      (c.waiting key = [] ∨ Quiet config now c)
  | (now, .settleToken id) =>
      (c.tokens id).outstanding = false ∨ Quiet config now (c.giveBack id)
  | (now, .release id) => (c.tokens id).outstanding = false ∨ Quiet config now (c.giveBack id)
  | (now, .releaseToken id) =>
      (c.tokens id).outstanding = false ∨ Quiet config now (c.giveBack id)
  | (_, .cancel _) => True
  | (_, .resume _) => True
  | (_, .openCooldown ..) => True

instance (made : ℚ × AdmissionEvent) : Decidable (c.Interleaves made) := by
  rcases made with ⟨_, _ | _ | _ | _ | _ | _ | _⟩ <;> unfold Interleaves <;> infer_instance

instance (made : ℚ × AdmissionEvent) : Decidable (Undisturbed config c made) := by
  rcases made with ⟨_, _ | _ | _ | _ | _ | _ | _⟩ <;> unfold Undisturbed <;> infer_instance

/-! ## Cancelling -/

/-- The token that a cancellation leaves, by `cancel` or by `release`. -/
def cancelledToken (token : AdmissionToken) (released : Bool) : AdmissionToken :=
  { token with
    released := released
    state := .cancelled
    call := .refused (.cancelled token.scopeLabel) }

theorem cancel_of_queued (queued : c.Queued id) :
    c.cancel id = c.setToken id (cancelledToken (c.tokens id) (c.tokens id).released) := by
  simp [cancel, AdmissionToken.cancel, queued.2.1, queued.2.2, cancelledToken]

theorem Sound.release_of_queued (sound : Sound config c) (now : ℚ) (queued : c.Queued id) :
    c.release config now id = c.setToken id (cancelledToken (c.tokens id) true) := by
  have unreleased := ((sound.tokens id queued.1).1.queued queued.2.1).2.1
  simp [ProviderAdmissionController.release, ProviderAdmissionController.cancel,
    AdmissionToken.cancel, unreleased, queued.2.1, queued.2.2, cancelledToken,
    ProviderAdmissionController.setToken, Function.update_idem]

/-- A cancellation keeps the accounting and changes one token. -/
theorem Sound.cancelled (sound : Sound config c) (queued : c.Queued id) (released : Bool) :
    Sound config (c.setToken id (cancelledToken (c.tokens id) released)) := by
  have tsound := (sound.tokens id queued.1).1
  refine sound.setToken queued.1 ?_ rfl ?_ fun _ _ => .inr ⟨rfl, rfl⟩
  · exact ⟨tsound.owned, tsound.controlled, .inr (.inr rfl), fun h => (by cases h),
      fun h => (by cases h), fun _ => ⟨(tsound.queued queued.2.1).1, .inl rfl⟩⟩
  · have before : (c.tokens id).outstanding = false :=
      AdmissionToken.outstanding_of_state (by rw [queued.2.1]; decide)
    rw [before]
    rfl

/-! ## What every step keeps -/

/-- A sound controller whose history lists granted tokens only. -/
structure Recorded (config : ProviderAdmissionConfig) (c : ProviderAdmissionController) :
    Prop where
  sound : Sound config c
  history : ∀ id ∈ c.grants, c.Granted id

theorem recorded_empty : Recorded config empty :=
  ⟨sound_empty, fun _ h => by cases h⟩

/-- A cancelled token stays so, and joins no queue. -/
structure StaysCancelled (c d : ProviderAdmissionController) : Prop where
  issued : c.issued ≤ d.issued
  state : ∀ id < c.issued, (c.tokens id).state = .cancelled → (d.tokens id).state = .cancelled
  scopeKey : ∀ id < c.issued, (d.tokens id).scopeKey = (c.tokens id).scopeKey
  waiting : ∀ key, ∀ id < c.issued, (c.tokens id).state = .cancelled →
    id ∈ d.waiting key → id ∈ c.waiting key

theorem Serves.staysCancelled (serves : Serves now c d) : StaysCancelled c d where
  issued := serves.issued
  state := fun id here cancelled =>
    (serves.cancelled id (here.trans_le serves.issued)).mpr ⟨here, cancelled⟩
  scopeKey := serves.scopeKey
  waiting := by
    intro key id here cancelled mem
    rcases serves.waiting key id mem with before | alive
    · exact before
    · exact absurd ((serves.cancelled id alive.1).mpr ⟨here, cancelled⟩) alive.2

theorem Recorded.served (recorded : Recorded config c) {own : String}
    (served : Served config now own c d) : Recorded config d ∧ StaysCancelled c d := by
  refine ⟨⟨served.sound, fun id mem => ?_⟩, served.serves.staysCancelled⟩
  rcases served.serves.history id mem with before | granted
  · exact (served.serves.spent id (recorded.history id before)).1
  · exact granted

theorem Recorded.cancel (recorded : Recorded config c) (queued : c.Queued id)
    (released : Bool) :
    Recorded config (c.setToken id (cancelledToken (c.tokens id) released)) ∧
      StaysCancelled c (c.setToken id (cancelledToken (c.tokens id) released)) := by
  have tokens : ∀ i, i ≠ id →
      (c.setToken id (cancelledToken (c.tokens id) released)).tokens i = c.tokens i :=
    fun i hne => by simp [Function.update_of_ne hne]
  refine ⟨⟨recorded.sound.cancelled queued released, fun i mem => ?_⟩,
    Nat.le_refl _, fun i here cancelled => ?_, fun i here => ?_, fun _ _ _ _ h => h⟩
  · have granted := recorded.history i mem
    have hne : i ≠ id := by
      rintro rfl
      cases queued.2.1.symm.trans granted.2
    rw [Granted, tokens i hne]
    exact granted
  · have hne : i ≠ id := by
      rintro rfl
      cases queued.2.1.symm.trans cancelled
    rw [tokens i hne]
    exact cancelled
  · rcases eq_or_ne i id with rfl | hne
    · simp [cancelledToken]
    · rw [tokens i hne]

theorem Recorded.step (recorded : Recorded config c) {made : ℚ × AdmissionEvent}
    (interleaves : c.Interleaves made) (undisturbed : Undisturbed config c made) :
    Recorded config (c.apply config made) ∧ StaysCancelled c (c.apply config made) := by
  obtain ⟨now, event⟩ := made
  have sound := recorded.sound
  have quiet : ∀ id, c.Granted id →
      ((c.tokens id).outstanding = false ∨ Quiet config now (c.giveBack id)) →
      (c.tokens id).settled = false → Quiet config now (c.giveBack id) := by
    intro id granted h unsettled
    refine h.resolve_left fun gone => ?_
    rw [(sound.tokens id granted.1).1.outstanding_eq granted.2, unsettled] at gone
    cases gone
  cases event with
  | reserve key scopeLabel priority =>
      refine recorded.served (sound.reserve scopeLabel priority ?_)
      exact undisturbed.2.imp_left List.map_eq_nil_iff.mp
  | resume id =>
      have served : Served config now (c.tokens id).scopeKey c (c.resume id) :=
        sound.resume interleaves
      exact recorded.served served
  | settleToken id =>
      exact recorded.served (sound.settleToken interleaves (quiet id interleaves undisturbed))
  | releaseToken id =>
      exact recorded.served (sound.releaseToken interleaves (quiet id interleaves undisturbed))
  | release id =>
      rcases interleaves with granted | queued
      · exact recorded.served (sound.release granted (quiet id granted undisturbed))
      · rw [apply, sound.release_of_queued now queued]
        exact recorded.cancel queued true
  | cancel id =>
      rw [apply, cancel_of_queued interleaves]
      exact recorded.cancel interleaves _
  | openCooldown key retryAfterMs =>
      have opened : Sound config (c.openCooldown config now key retryAfterMs) :=
        sound.openCooldown retryAfterMs
      rcases openCooldown_cases config now c key retryAfterMs with same | ⟨deadline, -, heq⟩
      · rw [apply, same]
        exact ⟨recorded, Nat.le_refl _, fun _ _ h => h, fun _ _ => rfl, fun _ _ _ _ h => h⟩
      · rw [heq] at opened
        rw [apply, heq]
        refine ⟨⟨opened, recorded.history⟩, Nat.le_refl _, fun _ _ h => h, fun _ _ => rfl, ?_⟩
        intro k i _ _ mem
        rcases eq_or_ne k key with rfl | hne
        · simpa [waiting] using mem
        · simpa [waiting, Function.update_of_ne hne] using mem

/-! ## Without the cancelled entry -/

section Removal

variable (c : ProviderAdmissionController) (key : String) (id : Nat)

@[simp] theorem removeFromQueue_keys : (c.removeFromQueue key id).keys = c.keys := rfl
@[simp] theorem removeFromQueue_tokens : (c.removeFromQueue key id).tokens = c.tokens := rfl
@[simp] theorem removeFromQueue_issued : (c.removeFromQueue key id).issued = c.issued := rfl
@[simp] theorem removeFromQueue_grants : (c.removeFromQueue key id).grants = c.grants := rfl
@[simp] theorem removeFromQueue_scopes : (c.removeFromQueue key id).scopes =
    Function.update c.scopes key { c.scopes key with
      queue := (c.scopes key).queue.eraseP (·.token == id) } := rfl

end Removal

theorem removeFromQueue_of_notMem (apart : id ∉ c.waiting key) :
    c.removeFromQueue key id = c := by
  have same : (c.scopes key).queue.eraseP (·.token == id) = (c.scopes key).queue := by
    rw [List.eraseP_of_forall_not]
    intro entry hentry h
    exact apart (List.mem_map.mpr ⟨entry, hentry, by simpa using h⟩)
  apply ProviderAdmissionController.ext <;> simp [same]

/-- A change of another scope commutes with the removal. -/
theorem setScope_removeFromQueue (scope : ScopeRuntime) (hne : other ≠ key) :
    (c.removeFromQueue key id).setScope other scope =
      (c.setScope other scope).removeFromQueue key id := by
  apply ProviderAdmissionController.ext
  · rfl
  · simp [Function.update_of_ne hne.symm, Function.update_comm hne]
  · rfl
  · rfl
  · rfl

/-- Two entries leave the queues in either order. -/
theorem removeFromQueue_comm (j : Nat) :
    (c.removeFromQueue key id).removeFromQueue other j =
      (c.removeFromQueue other j).removeFromQueue key id := by
  rcases eq_or_ne other key with rfl | hne
  · have comm : ((c.scopes other).queue.eraseP (·.token == id)).eraseP (·.token == j) =
        ((c.scopes other).queue.eraseP (·.token == j)).eraseP (·.token == id) := by
      rcases eq_or_ne j id with rfl | apart
      · rfl
      · refine List.eraseP_comm fun entry _ => ?_
        by_cases h : entry.token = id
        · exact .inr (by simpa [h] using apart.symm)
        · exact .inl (by simpa using h)
    apply ProviderAdmissionController.ext <;> simp [comm]
  · have scope : (c.removeFromQueue key id).scopes other = c.scopes other := by
      simp [Function.update_of_ne hne]
    rw [removeFromQueue, scope, setScope_removeFromQueue _ hne]
    rfl

theorem grantFrom_removeFromQueue (j : Nat) (rest : List QueueEntry) (hne : other ≠ key) :
    (c.removeFromQueue key id).grantFrom other j rest =
      (c.grantFrom other j rest).removeFromQueue key id := by
  apply ProviderAdmissionController.ext
  · rfl
  · simp [Function.update_of_ne hne, Function.update_of_ne hne.symm, Function.update_comm hne]
  · rfl
  · rfl
  · rfl

theorem pumpScope_removeFromQueue (hne : other ≠ key) (fuel : Nat) :
    pumpScope config now other fuel (c.removeFromQueue key id) =
      (pumpScope config now other fuel c).removeFromQueue key id := by
  induction fuel generalizing c with
  | zero => rfl
  | succ fuel ih =>
      have scope : (c.removeFromQueue key id).scopes other = c.scopes other := by
        simp [Function.update_of_ne hne]
      rw [pumpScope, pumpScope, scope, removeFromQueue_tokens]
      split
      · split
        · rfl
        · rw [grantFrom_removeFromQueue _ _ hne]
          exact ih
      · rfl

theorem pumpScope_of_held (held : canGrant config now (c.scopes key) = false) (fuel : Nat) :
    pumpScope config now key fuel c = c := by
  cases fuel with
  | zero => rfl
  | succ fuel => simp [pumpScope, held]

/-- The pump does not see an entry of a scope that cannot grant. -/
theorem pump_removeFromQueue (held : canGrant config now (c.scopes key) = false) :
    (c.removeFromQueue key id).pump config now = (c.pump config now).removeFromQueue key id := by
  have fold : ∀ keys : List String, ∀ d : ProviderAdmissionController,
      canGrant config now (d.scopes key) = false →
      keys.foldl (fun c key => pumpScope config now key (c.scopes key).queue.length c)
          (d.removeFromQueue key id) =
        (keys.foldl (fun c key => pumpScope config now key (c.scopes key).queue.length c)
          d).removeFromQueue key id := by
    intro keys
    induction keys with
    | nil => exact fun _ _ => rfl
    | cons first rest ih =>
        intro d held
        rw [List.foldl_cons, List.foldl_cons]
        rcases eq_or_ne first key with rfl | hne
        · have held' : canGrant config now ((d.removeFromQueue first id).scopes first) = false := by
            simpa [canGrant] using held
          rw [pumpScope_of_held held, pumpScope_of_held held']
          exact ih d held
        · have scope : (d.removeFromQueue key id).scopes first = d.scopes first := by
            simp [Function.update_of_ne hne]
          rw [scope, pumpScope_removeFromQueue hne]
          refine ih _ ?_
          rw [(pumpScope_apart config now _ d hne.symm).1]
          exact held
  exact fold c.keys c held

theorem afterReturn_removeFromQueue (j : Nat) (released : Bool) :
    (c.removeFromQueue key id).afterReturn j released =
      (c.afterReturn j released).removeFromQueue key id := by
  rcases eq_or_ne (c.tokens j).scopeKey key with rfl | hne
  · apply ProviderAdmissionController.ext <;> simp [afterReturn]
  · apply ProviderAdmissionController.ext
    · rfl
    · simp [afterReturn, Function.update_of_ne hne, Function.update_of_ne hne.symm,
        Function.update_comm hne]
    · rfl
    · rfl
    · rfl

theorem releaseToken_removeFromQueue (j : Nat)
    (held : (c.tokens j).settled = false →
      canGrant config now ((c.giveBack j).scopes key) = false) :
    (c.removeFromQueue key id).releaseToken config now j =
      (c.releaseToken config now j).removeFromQueue key id := by
  rw [releaseToken, releaseToken, removeFromQueue_tokens, removeFromQueue_keys]
  split
  · rfl
  · rename_i unsettled
    split
    · rw [giveBack_eq, giveBack_eq, afterReturn_removeFromQueue]
      exact pump_removeFromQueue (held (by simpa using unsettled))
    · rfl

theorem settleToken_removeFromQueue (j : Nat)
    (held : (c.tokens j).settled = false →
      canGrant config now ((c.giveBack j).scopes key) = false) :
    (c.removeFromQueue key id).settleToken config now j =
      (c.settleToken config now j).removeFromQueue key id := by
  rw [settleToken, settleToken, removeFromQueue_tokens]
  split
  · rfl
  · exact releaseToken_removeFromQueue j held

theorem release_removeFromQueue (j : Nat)
    (held : (c.tokens j).state = .admitted → (c.tokens j).settled = false →
      canGrant config now ((c.giveBack j).scopes key) = false)
    (known : (c.tokens j).state = .queued ∨ (c.tokens j).state = .admitted) :
    (c.removeFromQueue key id).release config now j =
      (c.release config now j).removeFromQueue key id := by
  rw [release, release, removeFromQueue_tokens]
  split
  · rfl
  · split
    · rfl
    · rename_i active
      split
      · rw [show (c.removeFromQueue key id).setToken j { c.tokens j with released := true } =
          (c.setToken j { c.tokens j with released := true }).removeFromQueue key id from rfl]
        refine releaseToken_removeFromQueue j fun unsettled => ?_
        rw [giveBack_setToken]
        refine held (known.resolve_left active) ?_
        simpa using unsettled
      · rfl

theorem resume_removeFromQueue (j : Nat) :
    (c.removeFromQueue key id).resume j = (c.resume j).removeFromQueue key id := by
  rw [resume, resume, removeFromQueue_tokens]
  split
  · rfl
  · split
    · rw [removeFromQueue_comm]
      rfl
    · rfl
  · rfl

theorem openCooldown_removeFromQueue (k : String) (retryAfterMs : Option Nat) :
    (c.removeFromQueue key id).openCooldown config now k retryAfterMs =
      (c.openCooldown config now k retryAfterMs).removeFromQueue key id := by
  unfold openCooldown
  rw [removeFromQueue_keys]
  split
  · rcases eq_or_ne k key with rfl | hne
    · apply ProviderAdmissionController.ext <;> simp
    · have scope : (c.removeFromQueue key id).scopes k = c.scopes k := by
        simp [Function.update_of_ne hne]
      rw [scope]
      exact setScope_removeFromQueue _ hne
  · rfl

section Requests

variable {scopeLabel : String} {priority : AdmissionPriorityClass}

theorem arrive_removeFromQueue (known : key ∈ c.keys) :
    (c.removeFromQueue key id).arrive other scopeLabel priority =
      (c.arrive other scopeLabel priority).removeFromQueue key id := by
  by_cases here : other ∈ c.keys
  · simp [arrive, construct, ensureScope, here, removeFromQueue, setScope, setToken]
  · have hne : other ≠ key := fun h => here (h ▸ known)
    apply ProviderAdmissionController.ext
    · simp [arrive, construct, ensureScope, here]
    · simp [arrive, construct, ensureScope, here, Function.update_of_ne hne.symm,
        Function.update_comm hne]
    · simp [arrive, construct, ensureScope, here]
    · simp [arrive, construct, ensureScope, here]
    · simp [arrive, construct, ensureScope, here]

/-- A request of another scope does not see the entry either. -/
theorem Sound.reserve_removeFromQueue (sound : Sound config c) (known : key ∈ c.keys)
    (hne : other ≠ key)
    (held : c.waiting other = [] ∨ canGrant config now (c.scopes key) = false) :
    ((c.removeFromQueue key id).reserve config now other scopeLabel priority).1 =
      (c.reserve config now other scopeLabel priority).1.removeFromQueue key id := by
  have scopeOf : ∀ d : ProviderAdmissionController,
      (d.removeFromQueue key id).scopes other = d.scopes other := fun d => by
    simp [Function.update_of_ne hne]
  have ready : ((c.removeFromQueue key id).arrive other scopeLabel priority).pumpWaiting
      config now other =
      ((c.arrive other scopeLabel priority).pumpWaiting config now other).removeFromQueue
        key id := by
    rw [arrive_removeFromQueue known, pumpWaiting, pumpWaiting, scopeOf]
    split
    · rfl
    · rename_i waits
      refine pump_removeFromQueue ?_
      rw [arrive_scopes sound] at waits ⊢
      exact held.resolve_left fun h => waits (by
        rw [List.isEmpty_iff]
        exact List.map_eq_nil_iff.mp h)
  rw [ProviderAdmissionController.reserve, ProviderAdmissionController.reserve, ready,
    removeFromQueue_issued, scopeOf]
  split
  · apply ProviderAdmissionController.ext
    · rfl
    · simp [Function.update_of_ne hne, Function.update_of_ne hne.symm, Function.update_comm hne]
    · rfl
    · rfl
    · rfl
  · split
    · rfl
    · apply ProviderAdmissionController.ext
      · rfl
      · simp [Function.update_of_ne hne, Function.update_of_ne hne.symm,
          Function.update_comm hne]
      · rfl
      · rfl
      · rfl

end Requests

/-- A step of a controller that keeps a cancelled entry is the step of the controller
without it. -/
theorem Recorded.twin (recorded : Recorded config c) {made : ℚ × AdmissionEvent}
    (interleaves : c.Interleaves made) (undisturbed : Undisturbed config c made)
    (here : id < c.issued) (cancelled : (c.tokens id).state = .cancelled) :
    (c.removeFromQueue (c.tokens id).scopeKey id).apply config made =
      (c.apply config made).removeFromQueue (c.tokens id).scopeKey id := by
  have sound := recorded.sound
  obtain ⟨next, stays⟩ := recorded.step interleaves undisturbed
  have known := (sound.tokens id here).2
  by_cases mem : id ∈ c.waiting (c.tokens id).scopeKey
  · obtain ⟨now, event⟩ := made
    have held : ∀ j, c.Granted j →
        ((c.tokens j).outstanding = false ∨ Quiet config now (c.giveBack j)) →
        (c.tokens j).settled = false →
        canGrant config now ((c.giveBack j).scopes (c.tokens id).scopeKey) = false := by
      intro j granted quiet unsettled
      have out : (c.tokens j).outstanding = true := by
        rw [(sound.tokens j granted.1).1.outstanding_eq granted.2, unsettled]
        rfl
      rw [out] at quiet
      refine quiet.resolve_left (by decide) _ known id ?_ ?_
      · rw [giveBack_eq, afterReturn_waiting]
        exact mem
      · have hne : id ≠ j := by
          rintro rfl
          cases cancelled.symm.trans granted.2
        simpa [giveBack, Function.update_of_ne hne] using cancelled
    cases event with
    | reserve k scopeLabel priority =>
        have hne : k ≠ (c.tokens id).scopeKey := by
          rintro rfl
          exact undisturbed.1 id mem cancelled
        refine sound.reserve_removeFromQueue known hne (undisturbed.2.imp_right fun quiet => ?_)
        exact quiet _ known id mem cancelled
    | resume j => exact resume_removeFromQueue j
    | settleToken j => exact settleToken_removeFromQueue j (held j interleaves undisturbed)
    | releaseToken j => exact releaseToken_removeFromQueue j (held j interleaves undisturbed)
    | cancel j => rfl
    | openCooldown k retryAfterMs => exact openCooldown_removeFromQueue k retryAfterMs
    | release j =>
        refine release_removeFromQueue j (fun admitted => ?_) ?_
        · have granted : c.Granted j := interleaves.resolve_right fun queued =>
            absurd (queued.2.1.symm.trans admitted) (by decide)
          exact held j granted undisturbed
        · exact interleaves.symm.imp (fun queued => queued.2.1) fun granted => granted.2
  · rw [removeFromQueue_of_notMem mem, removeFromQueue_of_notMem]
    exact fun after => mem (stays.waiting _ id here cancelled after)

/-! ## Runs -/

abbrev QuietSteps (config : ProviderAdmissionConfig) :
    ProviderAdmissionController → ℚ × AdmissionEvent → ProviderAdmissionController → Prop :=
  Guarded (Steps config) fun c made => c.Interleaves made ∧ Undisturbed config c made

theorem recorded_of_run {labels : List (ℚ × AdmissionEvent)}
    (run : Run (QuietSteps config) .empty labels c) : Recorded config c := by
  refine run.invariant (I := Recorded config) ?_ recorded_empty
  rintro a made b recorded ⟨⟨interleaves, undisturbed⟩, rfl⟩
  exact (recorded.step interleaves undisturbed).1

/-- What becomes of a token `id` that is cancelled in `c`, in the run to `d`: it is never
granted, its call fails as cancelled, and the same events grant the same tokens in the
same order when its entry is taken from the queue at once. -/
structure CancelledAlone (config : ProviderAdmissionConfig) (c : ProviderAdmissionController)
    (id : Nat) (more : List (ℚ × AdmissionEvent)) (d : ProviderAdmissionController) : Prop where
  cancelled : (d.tokens id).state = .cancelled
  ungranted : id ∉ d.grants
  rejected : (d.tokens id).call = .refused (.cancelled (d.tokens id).scopeLabel) ∨
    (d.tokens id).call = .failed (.cancelled (d.tokens id).scopeLabel)
  order : ∃ twin, Run (Steps config) (c.removeFromQueue (c.tokens id).scopeKey id) more twin ∧
    twin.grants = d.grants ∧ twin.tokens = d.tokens

/-- Every permit that the counter counts belongs to a call that returns its token. -/
def PermitsHeld (c : ProviderAdmissionController) : Prop :=
  ∀ key ∈ c.keys, (c.scopes key).concurrent = (c.outstanding key).card ∧
    ∀ id ∈ c.outstanding key, (c.tokens id).call = .idle ∨ (c.tokens id).call = .woken

theorem Recorded.cancelledAlone (recorded : Recorded config c) (here : id < c.issued)
    (cancelled : (c.tokens id).state = .cancelled) {more : List (ℚ × AdmissionEvent)}
    (run : Run (QuietSteps config) c more d) : CancelledAlone config c id more d := by
  -- the twin state is the reached state without the entry
  have invariant := run.invariant_labels
    (I := fun before s => Recorded config s ∧ id < s.issued ∧ (s.tokens id).state = .cancelled ∧
      (s.tokens id).scopeKey = (c.tokens id).scopeKey ∧
      Run (Steps config) (c.removeFromQueue (c.tokens id).scopeKey id) before
        (s.removeFromQueue (c.tokens id).scopeKey id)) ?_ ⟨recorded, here, cancelled, rfl, .refl _⟩
  · obtain ⟨last, there, final, -, twin⟩ := invariant
    refine ⟨final, fun granted => ?_, ((last.sound.tokens id there).1.cancelled final).2,
      _, twin, rfl, rfl⟩
    cases final.symm.trans (last.history id granted).2
  · rintro before a made b ⟨recorded, here, cancelled, scope, twin⟩ ⟨⟨interleaves, quiet⟩, rfl⟩
    obtain ⟨next, stays⟩ := recorded.step interleaves quiet
    refine ⟨next, here.trans_le stays.issued, stays.state id here cancelled,
      (stays.scopeKey id here).trans scope, ?_⟩
    have step := recorded.twin interleaves quiet here cancelled
    rw [scope] at step
    exact twin.tail step.symm

/-- While no cancelled entry meets a request of its scope or a pump that could grant from
its queue, a cancellation removes only the cancelled request. -/
theorem cancelled_alone (config : ProviderAdmissionConfig) {labels : List (ℚ × AdmissionEvent)}
    {c : ProviderAdmissionController} (run : Run (QuietSteps config) .empty labels c) :
    c.PermitsHeld ∧ ∀ id < c.issued, (c.tokens id).state = .cancelled →
      ∀ more d, Run (QuietSteps config) c more d → CancelledAlone config c id more d := by
  have recorded := recorded_of_run run
  refine ⟨fun key _ => ⟨(recorded.sound.scopes key).concurrent, fun id mem => ?_⟩,
    fun id here cancelled more d rest => recorded.cancelledAlone here cancelled rest⟩
  obtain ⟨here, -, out⟩ := mem_outstanding.mp mem
  exact ((recorded.sound.tokens id here).1.admitted (AdmissionToken.outstanding_iff.mp out).1).2

/-- Two callers wait behind a permit, and the first of them is cancelled. -/
def cancelRun : List (ℚ × AdmissionEvent) :=
  [(0, .reserve "scope" "label" .interactive), (1, .reserve "scope" "label" .interactive),
   (2, .reserve "scope" "label" .background), (3, .cancel 1)]

/-- The continuation of the cancelled call runs before the permit goes back. -/
def promptRun : List (ℚ × AdmissionEvent) :=
  [(3, .resume 1), (4, .settleToken 0), (5, .resume 2), (6, .release 2)]

theorem cancelled_alone_promptRun :
    CancelledAlone defaultProviderAdmissionConfig
        (cancelRun.foldl (apply defaultProviderAdmissionConfig) empty) 1 promptRun
        (promptRun.foldl (apply defaultProviderAdmissionConfig)
          (cancelRun.foldl (apply defaultProviderAdmissionConfig) empty)) ∧
      (promptRun.foldl (apply defaultProviderAdmissionConfig)
        (cancelRun.foldl (apply defaultProviderAdmissionConfig) empty)).grants = [0, 2] :=
  ⟨(cancelled_alone defaultProviderAdmissionConfig
      (Run.guarded_foldl (fun _ _ => of_decide_eq_true)
        (by decide +kernel : Run.checked (apply defaultProviderAdmissionConfig)
          (fun c made => decide (c.Interleaves made ∧
            Undisturbed defaultProviderAdmissionConfig c made)) empty cancelRun = true))).2
      1 (by decide +kernel) (by decide +kernel) promptRun _
      (Run.guarded_foldl (fun _ _ => of_decide_eq_true)
        (by decide +kernel : Run.checked (apply defaultProviderAdmissionConfig)
          (fun c made => decide (c.Interleaves made ∧
            Undisturbed defaultProviderAdmissionConfig c made))
          (cancelRun.foldl (apply defaultProviderAdmissionConfig) empty) promptRun = true)),
    by decide +kernel⟩

/-- When the permit goes back first, the cancelled token takes it. -/
theorem cancelled_alone_refuted :
    ¬ ∀ labels c,
      Run (Guarded (Steps defaultProviderAdmissionConfig) Interleaves) .empty labels c →
        c.PermitsHeld ∧ ∀ id < c.issued, (c.tokens id).state = .cancelled →
          ∀ more d, Run (Guarded (Steps defaultProviderAdmissionConfig) Interleaves) c more d →
            CancelledAlone defaultProviderAdmissionConfig c id more d := by
  intro alone
  have before := Run.guarded_foldl (fun _ _ => of_decide_eq_true)
    (by decide +kernel : Run.checked (apply defaultProviderAdmissionConfig)
      (fun c made => decide (c.Interleaves made)) empty cancelRun = true)
  have rest := Run.guarded_foldl (fun _ _ => of_decide_eq_true)
    (by decide +kernel : Run.checked (apply defaultProviderAdmissionConfig)
      (fun c made => decide (c.Interleaves made))
      (cancelRun.foldl (apply defaultProviderAdmissionConfig) empty) [(3, .settleToken 0)] = true)
  have after := (alone _ _ before).2 1 (by decide +kernel) (by decide +kernel) _ _ rest
  have granted : (([(3, .settleToken 0)].foldl (apply defaultProviderAdmissionConfig)
      (cancelRun.foldl (apply defaultProviderAdmissionConfig) empty)).tokens 1).state =
      .admitted := by decide +kernel
  cases granted.symm.trans after.cancelled

end AdCoder.ProviderAdmission.ProviderAdmissionController
