import AdCoder.Foundation.Runs
import AdCoder.ProviderAdmission.Permits

/-!
# Runs of the admission controller

Reserving, the continuations of waiting calls, settling, releasing, cancelling
and cooling down come in any order and at any times. Callers hold a token from
its grant on; a queued token can be cancelled, by `cancel` or by `release`.
-/

namespace AdCoder.ProviderAdmission

open Foundation

inductive AdmissionEvent where
  | reserve (scopeKey scopeLabel : String) (priority : AdmissionPriorityClass)
  | resume (id : Nat)
  | settleToken (id : Nat)
  | release (id : Nat)
  | releaseToken (id : Nat)
  | cancel (id : Nat)
  | openCooldown (scopeKey : String) (retryAfterMs : Option Nat)
  deriving DecidableEq

/-- The calls that give the permit of a token back. -/
def AdmissionEvent.Returns (event : AdmissionEvent) (id : Nat) : Prop :=
  event = .settleToken id ∨ event = .release id ∨ event = .releaseToken id

namespace ProviderAdmissionController

variable {config : ProviderAdmissionConfig} {now : ℚ} {c d e : ProviderAdmissionController}
  {key own : String} {id : Nat}

/-- One event, at a reading of the clock. -/
def apply (config : ProviderAdmissionConfig) (c : ProviderAdmissionController) :
    ℚ × AdmissionEvent → ProviderAdmissionController
  | (now, .reserve scopeKey scopeLabel priority) =>
      (c.reserve config now scopeKey scopeLabel priority).1
  | (_, .resume id) => c.resume id
  | (now, .settleToken id) => c.settleToken config now id
  | (now, .release id) => c.release config now id
  | (now, .releaseToken id) => c.releaseToken config now id
  | (_, .cancel id) => c.cancel id
  | (now, .openCooldown key retryAfterMs) => c.openCooldown config now key retryAfterMs

abbrev Steps (config : ProviderAdmissionConfig) (c : ProviderAdmissionController)
    (made : ℚ × AdmissionEvent) (d : ProviderAdmissionController) : Prop :=
  d = c.apply config made

/-- The scope that an event is about. -/
def eventScope (c : ProviderAdmissionController) : AdmissionEvent → String
  | .reserve scopeKey _ _ => scopeKey
  | .openCooldown scopeKey _ => scopeKey
  | .resume id => (c.tokens id).scopeKey
  | .settleToken id => (c.tokens id).scopeKey
  | .release id => (c.tokens id).scopeKey
  | .releaseToken id => (c.tokens id).scopeKey
  | .cancel id => (c.tokens id).scopeKey

/-- A token that `reserve` has handed out, or is about to. -/
def Granted (c : ProviderAdmissionController) (id : Nat) : Prop :=
  id < c.issued ∧ (c.tokens id).state = .admitted

/-- A token that a caller waits for. -/
def Queued (c : ProviderAdmissionController) (id : Nat) : Prop :=
  id < c.issued ∧ (c.tokens id).state = .queued ∧ (c.tokens id).call = .waiting

instance : Decidable (c.Granted id) := inferInstanceAs (Decidable (_ ∧ _))
instance : Decidable (c.Queued id) := inferInstanceAs (Decidable (_ ∧ _))

/-! ## What an operation serves -/

/-- No cooldown is opened and nothing is cancelled; what is granted has cooled down, what
was given back stays so, and no cancelled token joins a queue. -/
structure Serves (now : ℚ) (c d : ProviderAdmissionController) : Prop where
  issued : c.issued ≤ d.issued
  cooldown : ∀ key, (d.scopes key).cooldownUntil = (c.scopes key).cooldownUntil
  scopeKey : ∀ id < c.issued, (d.tokens id).scopeKey = (c.tokens id).scopeKey
  admitted : ∀ id, d.Granted id → c.Granted id ∨ Cooled now (c.scopes (d.tokens id).scopeKey)
  spent : ∀ id, c.Granted id → d.Granted id ∧
    ((c.tokens id).outstanding = false → (d.tokens id).outstanding = false)
  cancelled : ∀ id < d.issued, (d.tokens id).state = .cancelled ↔
    id < c.issued ∧ (c.tokens id).state = .cancelled
  waiting : ∀ key, ∀ id ∈ d.waiting key,
    id ∈ c.waiting key ∨ (id < d.issued ∧ (d.tokens id).state ≠ .cancelled)
  history : ∀ id ∈ d.grants, id ∈ c.grants ∨ d.Granted id

theorem Serves.refl : Serves now c c where
  issued := Nat.le_refl _
  cooldown := fun _ => rfl
  scopeKey := fun _ _ => rfl
  admitted := fun _ h => .inl h
  spent := fun _ h => ⟨h, fun h => h⟩
  cancelled := fun _ here => ⟨fun h => ⟨here, h⟩, fun h => h.2⟩
  waiting := fun _ _ h => .inl h
  history := fun _ h => .inl h

theorem Serves.trans (first : Serves now c d) (second : Serves now d e) : Serves now c e where
  issued := first.issued.trans second.issued
  cooldown := fun key => (second.cooldown key).trans (first.cooldown key)
  scopeKey := fun id here =>
    (second.scopeKey id (here.trans_le first.issued)).trans (first.scopeKey id here)
  admitted := by
    intro id granted
    rcases second.admitted id granted with before | cooled
    · rw [second.scopeKey id before.1]
      exact first.admitted id before
    · refine .inr fun cooldownUntil h => cooled cooldownUntil ?_
      rw [first.cooldown]
      exact h
  spent := fun id granted =>
    have middle := first.spent id granted
    have last := second.spent id middle.1
    ⟨last.1, fun h => last.2 (middle.2 h)⟩
  cancelled := by
    intro id here
    rw [second.cancelled id here]
    constructor
    · rintro ⟨middle, h⟩
      exact (first.cancelled id middle).mp h
    · rintro ⟨before, h⟩
      have middle := before.trans_le first.issued
      exact ⟨middle, (first.cancelled id middle).mpr ⟨before, h⟩⟩
  waiting := by
    intro key id mem
    rcases second.waiting key id mem with middle | alive
    · refine (first.waiting key id middle).imp_right fun alive => ?_
      have here := alive.1.trans_le second.issued
      exact ⟨here, fun h => alive.2 ((second.cancelled id here).mp h).2⟩
    · exact .inr alive
  history := by
    intro id mem
    rcases second.history id mem with middle | granted
    · exact (first.history id middle).imp_right fun granted => (second.spent id granted).1
    · exact .inr granted

/-- New tokens are queued; of the others nothing that matters here changes, except
that a permit may be given back. -/
theorem Serves.of_tokens (issued : c.issued ≤ d.issued)
    (cooldown : ∀ key, (d.scopes key).cooldownUntil = (c.scopes key).cooldownUntil)
    (old : ∀ id < c.issued, (d.tokens id).scopeKey = (c.tokens id).scopeKey ∧
      (d.tokens id).state = (c.tokens id).state ∧
      ((d.tokens id).outstanding = true → (c.tokens id).outstanding = true))
    (new : ∀ id, c.issued ≤ id → id < d.issued → (d.tokens id).state = .queued)
    (waits : ∀ key, ∀ id ∈ d.waiting key,
      id ∈ c.waiting key ∨ (id < d.issued ∧ (d.tokens id).state ≠ .cancelled))
    (grants : d.grants = c.grants) :
    Serves now c d where
  issued := issued
  cooldown := cooldown
  scopeKey := fun id here => (old id here).1
  admitted := by
    rintro id ⟨here, admitted⟩
    rcases Nat.lt_or_ge id c.issued with before | fresh
    · exact .inl ⟨before, (old id before).2.1 ▸ admitted⟩
    · cases (new id fresh here).symm.trans admitted
  spent := by
    rintro id ⟨here, admitted⟩
    refine ⟨⟨here.trans_le issued, (old id here).2.1.trans admitted⟩, fun done => ?_⟩
    by_contra still
    rw [Bool.not_eq_false] at still
    rw [(old id here).2.2 still] at done
    cases done
  cancelled := by
    intro id here
    rcases Nat.lt_or_ge id c.issued with before | fresh
    · rw [(old id before).2.1]
      exact ⟨fun h => ⟨before, h⟩, fun h => h.2⟩
    · rw [new id fresh here]
      exact ⟨fun h => (by cases h), fun h => absurd h.1 (Nat.not_lt.mpr fresh)⟩
  waiting := waits
  history := fun _ h => .inl (grants ▸ h)

theorem Pumped.serves (pumped : Pumped config now c d) : Serves now c d := by
  refine ⟨pumped.issued.ge, fun key => (pumped.scopes key).cooldown,
    fun id here => (pumped.scopes _).scopeKey here rfl, ?_, ?_, ?_,
    fun key id h => .inl ((pumped.scopes key).waiting_subset h), fun id h => ?_⟩
  · rintro id ⟨here, admitted⟩
    rw [pumped.issued] at here
    rcases pumped.tokens here with same | ⟨-, -, cooled, -⟩
    · exact .inl ⟨here, same ▸ admitted⟩
    · rw [(pumped.scopes _).scopeKey here rfl]
      exact .inr cooled
  · rintro id ⟨here, admitted⟩
    rcases pumped.tokens here with same | ⟨queued, -⟩
    · rw [Granted, pumped.issued, same]
      exact ⟨⟨here, admitted⟩, fun h => h⟩
    · cases queued.symm.trans admitted
  · intro id here
    rw [pumped.issued] at here
    rcases pumped.tokens here with same | ⟨queued, token, -⟩
    · rw [same]
      exact ⟨fun h => ⟨here, h⟩, fun h => h.2⟩
    · rw [token, queued]
      exact ⟨fun h => (by cases h), fun h => (by cases h.2)⟩
  · rw [Granted, pumped.issued]
    exact pumped.history id h

/-- An operation on the scope `own`. -/
structure Served (config : ProviderAdmissionConfig) (now : ℚ) (own : String)
    (c d : ProviderAdmissionController) : Prop where
  sound : Sound config d
  serves : Serves now c d
  apart : ∀ key ≠ own, OnlyGranted now c d key

theorem Served.trans (first : Served config now own c d) (second : Served config now own d e) :
    Served config now own c e where
  sound := second.sound
  serves := first.serves.trans second.serves
  apart := fun key hne => (first.apart key hne).trans (second.apart key hne)

theorem Served.refl (sound : Sound config c) : Served config now own c c :=
  ⟨sound, .refl, fun _ _ => .refl⟩

theorem Pumped.served (pumped : Pumped config now c d) : Served config now own c d :=
  ⟨pumped.sound, pumped.serves, fun key _ => pumped.scopes key⟩

/-! ## Giving a permit back -/

/-- The state that a returned permit leaves for the pump. -/
def afterReturn (c : ProviderAdmissionController) (id : Nat) (released : Bool) :
    ProviderAdmissionController :=
  let key := (c.tokens id).scopeKey
  let scope := c.scopes key
  (c.setToken id { c.tokens id with settled := true, released := released }).setScope key
    { scope with
      inFlightToken := if scope.inFlightToken = some id then none else scope.inFlightToken
      concurrent := scope.concurrent - 1 }

theorem afterReturn_waiting (c : ProviderAdmissionController) (id : Nat) (released : Bool)
    (key : String) :
    (c.afterReturn id released).waiting key = c.waiting key := by
  rcases eq_or_ne key (c.tokens id).scopeKey with rfl | hne
  · simp [waiting, afterReturn]
  · simp [waiting, afterReturn, Function.update_of_ne hne]

theorem giveBack_eq : c.giveBack id = c.afterReturn id (c.tokens id).released := rfl

theorem giveBack_setToken (released : Bool) :
    (c.setToken id { c.tokens id with released := released }).giveBack id =
      c.afterReturn id released := by
  simp [giveBack, afterReturn, ProviderAdmissionController.setToken,
    ProviderAdmissionController.setScope, Function.update_idem]

/-- Whether the pump finds a cancelled entry does not depend on the `released` flag. -/
theorem quiet_afterReturn (released : Bool) (quiet : Quiet config now (c.giveBack id)) :
    Quiet config now (c.afterReturn id released) := by
  intro key known other mem cancelled
  refine quiet key known other mem ?_
  rw [giveBack_eq]
  rcases eq_or_ne other id with rfl | hne
  · simpa [afterReturn] using cancelled
  · simpa [afterReturn, Function.update_of_ne hne] using cancelled

/-- The permit of a granted token that is not settled yet goes back. -/
theorem Sound.afterReturn (sound : Sound config c) (now : ℚ) (granted : c.Granted id)
    (unsettled : (c.tokens id).settled = false) (released : Bool) :
    Served config now (c.tokens id).scopeKey c (c.afterReturn id released) := by
  obtain ⟨here, admitted⟩ := granted
  have tsound := (sound.tokens id here).1
  have outstanding : (c.tokens id).outstanding = true := by
    rw [tsound.outstanding_eq admitted, unsettled]
    rfl
  refine ⟨sound.giveBack (mem_outstanding.mpr ⟨here, rfl, outstanding⟩)
    (tsound.settle admitted released) rfl (by simp [AdmissionToken.outstanding]),
    .of_tokens (Nat.le_refl _) ?_ ?_ ?_
      (fun key other h => .inl (afterReturn_waiting c id released key ▸ h)) rfl, ?_⟩
  · intro key
    rcases eq_or_ne key (c.tokens id).scopeKey with rfl | hne
    · simp [ProviderAdmissionController.afterReturn]
    · simp [ProviderAdmissionController.afterReturn, Function.update_of_ne hne]
  · intro other _
    rcases eq_or_ne other id with rfl | hne
    · simp [ProviderAdmissionController.afterReturn, AdmissionToken.outstanding]
    · simp [ProviderAdmissionController.afterReturn, Function.update_of_ne hne]
  · exact fun other fresh here => absurd here (Nat.not_lt.mpr fresh)
  · intro key hne
    refine .of_same (Nat.le_refl _) ?_ ?_
    · simp [ProviderAdmissionController.afterReturn, Function.update_of_ne hne]
    · intro other _ mine
      have hother : other ≠ id := by
        rintro rfl
        exact hne mine.symm
      simp [ProviderAdmissionController.afterReturn, Function.update_of_ne hother]

/-- Then the queues are pumped. -/
theorem Sound.returned (sound : Sound config c) (granted : c.Granted id)
    (unsettled : (c.tokens id).settled = false) (released : Bool)
    (quiet : Quiet config now (c.giveBack id)) :
    Served config now (c.tokens id).scopeKey c
        ((c.afterReturn id released).pump config now) ∧
      ((((c.afterReturn id released).pump config now).tokens id).outstanding = false) := by
  have back := sound.afterReturn now granted unsettled released
  have pumped := back.sound.pump (quiet_afterReturn released quiet)
  refine ⟨back.trans pumped.served, (pumped.serves.spent id ⟨granted.1, ?_⟩).2 ?_⟩
  · simpa [ProviderAdmissionController.afterReturn] using granted.2
  · simp [ProviderAdmissionController.afterReturn, AdmissionToken.outstanding]

theorem releaseToken_of_settled (settled : (c.tokens id).settled = true) :
    c.releaseToken config now id = c := by
  rw [releaseToken, if_pos settled]

theorem releaseToken_of_known (unsettled : (c.tokens id).settled = false)
    (known : (c.tokens id).scopeKey ∈ c.keys) :
    c.releaseToken config now id = (c.giveBack id).pump config now := by
  rw [releaseToken, if_neg (by simp [unsettled]), if_pos known]

/-- The release of a granted token that is not settled yet. -/
theorem release_of_granted (admitted : (c.tokens id).state = .admitted)
    (unsettled : (c.tokens id).settled = false) (unreleased : (c.tokens id).released = false)
    (controlled : (c.tokens id).controlled = true) (known : (c.tokens id).scopeKey ∈ c.keys) :
    c.release config now id = (c.afterReturn id true).pump config now := by
  have marked : (c.setToken id { c.tokens id with released := true }).releaseToken config now id =
      (c.afterReturn id true).pump config now := by
    rw [← giveBack_setToken]
    apply releaseToken_of_known
    · simpa using unsettled
    · simpa using known
  rw [release, if_neg (by simp [unreleased]), if_neg (by simp [admitted]), if_pos controlled]
  exact marked

/-- The release of a settled token only marks it. -/
theorem release_of_settled (admitted : (c.tokens id).state = .admitted)
    (settled : (c.tokens id).settled = true) :
    c.release config now id = c ∨
      c.release config now id = c.setToken id { c.tokens id with released := true } := by
  rw [release]
  split
  · exact .inl rfl
  · refine .inr ?_
    simp only [admitted, reduceCtorEq, if_false]
    split
    · exact releaseToken_of_settled (by simpa using settled)
    · rfl

/-! ## Changes of one token -/

/-- A token that keeps its scope, its state and its permit. -/
theorem Sound.setToken_served {token : AdmissionToken} (sound : Sound config c)
    (here : id < c.issued) (tsound : token.Sound)
    (hkey : token.scopeKey = (c.tokens id).scopeKey)
    (hstate : token.state = (c.tokens id).state)
    (hout : token.outstanding = (c.tokens id).outstanding)
    (hparked : ∀ key, id ∈ c.waiting key → token.Parked) :
    Served config now (c.tokens id).scopeKey c (c.setToken id token) := by
  refine ⟨sound.setToken here tsound hkey hout hparked,
    .of_tokens (Nat.le_refl _) (fun _ => rfl) ?_ ?_ (fun _ _ h => .inl h) rfl, ?_⟩
  · intro other _
    rcases eq_or_ne other id with rfl | hne
    · simp [hkey, hstate, hout]
    · simp [Function.update_of_ne hne]
  · exact fun other fresh here => absurd here (Nat.not_lt.mpr fresh)
  · intro key hne
    refine .of_same (Nat.le_refl _) rfl fun other _ mine => ?_
    have hother : other ≠ id := by
      rintro rfl
      exact hne mine.symm
    simp [Function.update_of_ne hother]

/-! ## Continuations -/

theorem removeFromQueue_sublist :
    ((c.removeFromQueue key id).scopes key).queue.Sublist (c.scopes key).queue := by
  simpa [removeFromQueue] using List.eraseP_sublist

theorem removeFromQueue_waiting (k : String) :
    (c.removeFromQueue key id).waiting k ⊆ c.waiting k := by
  rcases eq_or_ne k key with rfl | hne
  · exact (removeFromQueue_sublist.map QueueEntry.token).subset
  · rw [waiting, removeFromQueue, setScope_scopes, Function.update_of_ne hne, waiting]
    exact List.Subset.refl _

/-- A token leaves the queue for good, since it stands there once. -/
theorem Sound.removed (sound : Sound config c) :
    id ∉ (c.removeFromQueue key id).waiting key := by
  by_cases mem : id ∈ c.waiting key
  · obtain ⟨entry, hentry, heq⟩ := List.mem_map.mp mem
    obtain ⟨found, before, after, -, hfound, split, erased⟩ :=
      List.exists_of_eraseP (p := (·.token == id)) hentry (by simpa using heq)
    have nodup := (sound.scopes key).nodup
    rw [waiting, split, List.map_append, List.map_cons, List.nodup_middle] at nodup
    have apart := (List.nodup_cons.mp nodup).1
    rw [beq_iff_eq] at hfound
    simpa [waiting, removeFromQueue, erased, hfound] using apart
  · intro still
    exact mem ((removeFromQueue_sublist.map QueueEntry.token).subset still)

theorem Sound.removeFromQueue (sound : Sound config c) (known : key ∈ c.keys) :
    Served config now key c (c.removeFromQueue key id) := by
  refine ⟨sound.setScope _ known rfl (by simpa using List.eraseP_sublist),
    .of_tokens (Nat.le_refl _) ?_ (fun _ _ => ⟨rfl, rfl, fun h => h⟩) ?_
      (fun k other h => .inl (removeFromQueue_waiting k h)) rfl, ?_⟩
  · intro k
    rcases eq_or_ne k key with rfl | hne
    · simp [ProviderAdmissionController.removeFromQueue]
    · simp [ProviderAdmissionController.removeFromQueue, Function.update_of_ne hne]
  · exact fun other fresh here => absurd here (Nat.not_lt.mpr fresh)
  · intro k hne
    exact .of_same (Nat.le_refl _)
      (by simp [ProviderAdmissionController.removeFromQueue, Function.update_of_ne hne])
      fun _ _ _ => rfl

/-- Without a cancellation a continuation only returns a granted token. -/
theorem Sound.resume_cases (sound : Sound config c) (here : id < c.issued)
    (alive : (c.tokens id).state ≠ .cancelled) :
    c.resume id = c ∨ ((c.tokens id).state = .admitted ∧
      c.resume id = c.setToken id { c.tokens id with call := .idle }) := by
  obtain ⟨tsound, -⟩ := sound.tokens id here
  rcases tsound.state with queued | admitted | cancelled
  · rcases (tsound.queued queued).2.2 with call | call
    · exact .inl (by simp [ProviderAdmissionController.resume, call])
    · exact .inl (by simp [ProviderAdmissionController.resume, call])
  · rcases (tsound.admitted admitted).2 with call | call
    · exact .inl (by simp [ProviderAdmissionController.resume, call])
    · exact .inr ⟨admitted, by simp [ProviderAdmissionController.resume, call]⟩
  · exact absurd cancelled alive

/-- The continuation of a cancelled call removes the entry and fails. -/
theorem Sound.resume_of_cancelled (sound : Sound config c) (here : id < c.issued)
    (cancelled : (c.tokens id).state = .cancelled) :
    c.resume id = c ∨ c.resume id = (c.removeFromQueue (c.tokens id).scopeKey id).setToken id
      { c.tokens id with call := .failed (.cancelled (c.tokens id).scopeLabel) } := by
  rcases ((sound.tokens id here).1.cancelled cancelled).2 with call | call
  · exact .inr (by simp [ProviderAdmissionController.resume, call, cancelled])
  · exact .inl (by simp [ProviderAdmissionController.resume, call])

theorem Sound.resume (sound : Sound config c) (here : id < c.issued) :
    Served config now (c.tokens id).scopeKey c (c.resume id) := by
  obtain ⟨tsound, known⟩ := sound.tokens id here
  by_cases cancelled : (c.tokens id).state = .cancelled
  · rcases sound.resume_of_cancelled here cancelled with same | failed
    · rw [same]
      exact .refl sound
    · have removed : Served config now (c.tokens id).scopeKey c
          (c.removeFromQueue (c.tokens id).scopeKey id) := sound.removeFromQueue known
      rw [failed]
      refine removed.trans ?_
      refine removed.sound.setToken_served here ?_ rfl rfl rfl ?_
      · exact ⟨tsound.owned, tsound.controlled, tsound.state,
          fun h => (by cases cancelled.symm.trans h),
          fun h => (by cases cancelled.symm.trans h),
          fun _ => ⟨(tsound.cancelled cancelled).1, .inr rfl⟩⟩
      · intro key mem
        have mine := ((removed.sound.scopes key).parked id mem).2.1
        have gone : id ∉ (c.removeFromQueue (c.tokens id).scopeKey id).waiting
            (c.tokens id).scopeKey := sound.removed
        rw [show (c.tokens id).scopeKey = key from mine] at gone mem
        exact absurd mem gone
  · rcases sound.resume_cases here cancelled with same | ⟨admitted, returned⟩
    · rw [same]
      exact .refl sound
    · rw [returned]
      refine sound.setToken_served here ?_ rfl rfl rfl ?_
      · exact ⟨tsound.owned, tsound.controlled, tsound.state,
          fun h => (by cases admitted.symm.trans h),
          fun _ => ⟨(tsound.admitted admitted).1, .inl rfl⟩,
          fun h => (by cases admitted.symm.trans h)⟩
      · intro key mem
        rcases ((sound.scopes key).parked id mem).2.2 with h | h
        · cases admitted.symm.trans h.1
        · cases admitted.symm.trans h.1

/-! ## Reserving -/

theorem ensureScope_scopes (sound : Sound config c) : (c.ensureScope key).scopes = c.scopes := by
  rw [ensureScope]
  split
  · rfl
  · rename_i absent
    have default := sound.absent key absent
    simp [setScope, ← default]

theorem mem_ensureScope : key ∈ (c.ensureScope key).keys := by
  rw [ensureScope]
  split
  · assumption
  · simp

theorem keys_ensureScope : c.keys ⊆ (c.ensureScope key).keys := by
  rw [ensureScope]
  split
  · exact List.Subset.refl _
  · exact List.subset_append_left _ _

@[simp] theorem ensureScope_tokens : (c.ensureScope key).tokens = c.tokens := by
  rw [ensureScope]
  split <;> rfl

@[simp] theorem ensureScope_issued : (c.ensureScope key).issued = c.issued := by
  rw [ensureScope]
  split <;> rfl

section Arrival

variable {scopeLabel : String} {priority : AdmissionPriorityClass}

theorem arrive_scopes (sound : Sound config c) :
    (c.arrive key scopeLabel priority).scopes = c.scopes := ensureScope_scopes sound

theorem arrive_tokens_of_lt (here : id < c.issued) :
    (c.arrive key scopeLabel priority).tokens id = c.tokens id := by
  simp [arrive, construct, Function.update_of_ne (Nat.ne_of_lt here)]

theorem arrive_token : (c.arrive key scopeLabel priority).tokens c.issued =
    { scopeLabel := scopeLabel, scopeKey := key, priority := priority, controlled := true } := by
  simp [arrive, construct]

theorem arrive_issued : (c.arrive key scopeLabel priority).issued = c.issued + 1 := by
  simp [arrive, construct]

theorem arrive_grants : (c.arrive key scopeLabel priority).grants = c.grants := by
  rw [arrive, construct, ensureScope]
  split <;> rfl

theorem arrive_waiting (sound : Sound config c) (k : String) :
    (c.arrive key scopeLabel priority).waiting k = c.waiting k := by
  rw [waiting, arrive_scopes sound, waiting]

theorem Sound.arrive (sound : Sound config c) :
    Served config now key c (c.arrive key scopeLabel priority) := by
  have scopes : (c.arrive key scopeLabel priority).scopes = c.scopes := arrive_scopes sound
  set d := c.arrive key scopeLabel priority with hd
  have outs : ∀ k, d.outstanding k = c.outstanding k := by
    intro k
    ext i
    rw [mem_outstanding, mem_outstanding, hd, arrive_issued]
    rcases Nat.lt_trichotomy i c.issued with before | rfl | after
    · rw [arrive_tokens_of_lt before]
      exact ⟨fun h => ⟨before, h.2⟩, fun h => ⟨before.trans (Nat.lt_succ_self _), h.2⟩⟩
    · rw [arrive_token]
      simp [AdmissionToken.outstanding]
    · exact ⟨fun h => absurd h.1 (by omega), fun h => absurd h.1 (by omega)⟩
  refine ⟨⟨fun i hi => ?_, fun k => ?_, fun k hk => ?_⟩, .of_tokens ?_ ?_ ?_ ?_
    (fun k i h => .inl (arrive_waiting sound k ▸ h)) arrive_grants, ?_⟩
  · rw [hd, arrive_issued] at hi
    rcases Nat.lt_succ_iff_lt_or_eq.mp hi with before | rfl
    · rw [hd, arrive_tokens_of_lt before]
      exact ⟨(sound.tokens i before).1, keys_ensureScope (sound.tokens i before).2⟩
    · rw [hd, arrive_token]
      refine ⟨⟨rfl, rfl, .inl rfl, fun _ => ⟨rfl, rfl, .inl rfl⟩, ?_, ?_⟩, mem_ensureScope⟩
      · exact fun h => by cases h
      · exact fun h => by cases h
  · have before := sound.scopes k
    have waits : d.waiting k = c.waiting k := arrive_waiting sound k
    refine ⟨?_, ?_, waits ▸ before.capacity, waits ▸ before.nodup, fun i hi => ?_⟩
    · rw [scopes, outs]
      exact before.concurrent
    · rw [scopes]
      exact before.bounded
    · obtain ⟨known, mine⟩ := before.parked i (waits ▸ hi)
      rw [hd, arrive_issued, arrive_tokens_of_lt known]
      exact ⟨known.trans (Nat.lt_succ_self _), mine⟩
  · rw [scopes]
    exact sound.absent k fun h => hk (keys_ensureScope h)
  · rw [hd, arrive_issued]
    exact Nat.le_succ _
  · exact fun k => by rw [scopes]
  · intro i hi
    rw [hd, arrive_tokens_of_lt hi]
    exact ⟨rfl, rfl, fun h => h⟩
  · intro i fresh hi
    rw [hd, arrive_issued] at hi
    obtain rfl : i = c.issued := by omega
    rw [hd, arrive_token]
  · intro k _
    refine .of_same ?_ (by rw [scopes]) fun i hi _ => arrive_tokens_of_lt hi
    rw [hd, arrive_issued]
    exact Nat.le_succ _

end Arrival

/-- A direct grant to a request that waits in no queue. -/
theorem Sound.grant_served (sound : Sound config c) (here : id < c.issued)
    (mine : (c.tokens id).scopeKey = key) (queued : (c.tokens id).state = .queued)
    (apart : id ∉ c.waiting key) (free : canGrant config now (c.scopes key) = true) :
    Served config now key c (c.grant key id) := by
  have same : ∀ i, i ≠ id → (c.grant key id).tokens i = c.tokens i := fun i hne => by
    simp [Function.update_of_ne hne]
  have self : (c.grant key id).tokens id = (c.tokens id).markAdmitted := by simp
  have waits : ∀ k, (c.grant key id).waiting k = c.waiting k := fun k => by
    rcases eq_or_ne k key with rfl | hne
    · simp [waiting]
    · simp [waiting, Function.update_of_ne hne]
  refine ⟨sound.grant here mine queued apart (canGrant_iff.mp free).1,
    ⟨Nat.le_refl _, ?_, ?_, ?_, ?_, ?_, fun k i h => .inl (waits k ▸ h), ?_⟩, ?_⟩
  · intro k
    rcases eq_or_ne k key with rfl | hne
    · simp
    · simp [Function.update_of_ne hne]
  · intro i _
    rcases eq_or_ne i id with rfl | hne
    · rw [self]
      rfl
    · rw [same i hne]
  · rintro i ⟨hi, admitted⟩
    rcases eq_or_ne i id with rfl | hne
    · rw [self, show (c.tokens i).markAdmitted.scopeKey = key from mine]
      exact .inr (canGrant_iff.mp free).2
    · rw [same i hne] at admitted
      exact .inl ⟨hi, admitted⟩
  · rintro i ⟨hi, admitted⟩
    have hne : i ≠ id := by
      rintro rfl
      cases queued.symm.trans admitted
    rw [Granted, same i hne]
    exact ⟨⟨hi, admitted⟩, fun h => h⟩
  · intro i hi
    rcases eq_or_ne i id with rfl | hne
    · rw [self, queued]
      exact ⟨fun h => (by cases h), fun h => (by cases h.2)⟩
    · rw [same i hne]
      exact ⟨fun h => ⟨hi, h⟩, fun h => h.2⟩
  · intro i hi
    have grants : (c.grant key id).grants = c.grants ++ [id] := rfl
    rw [grants, List.mem_append, List.mem_singleton] at hi
    refine hi.imp_right ?_
    rintro rfl
    exact ⟨here, by rw [self]; rfl⟩
  · intro k hne
    refine .of_same (Nat.le_refl _) (by simp [Function.update_of_ne hne]) fun i _ hi => same i ?_
    rintro rfl
    exact hne (hi.symm.trans mine)

/-- A request joins a queue that has room. -/
theorem Sound.park (sound : Sound config c) (here : id < c.issued)
    (mine : (c.tokens id).scopeKey = key) (queued : (c.tokens id).state = .queued)
    (apart : id ∉ c.waiting key) (priority : AdmissionPriorityClass)
    (room : (c.scopes key).queue.length < config.queueCapacityPerScope) :
    Served config now key c (c.park now key id priority) := by
  set d := c.park now key id priority with hd
  obtain ⟨tsound, known⟩ := sound.tokens id here
  have self : d.tokens id = { c.tokens id with call := .waiting } := by
    simp [hd]
  have same : ∀ i, i ≠ id → d.tokens i = c.tokens i := fun i hne => by
    simp [hd, Function.update_of_ne hne]
  have scope : d.scopes key = { c.scopes key with
      queue := (c.scopes key).queue ++ [⟨priority, now, id⟩] } := by
    simp [hd]
  have scopes : ∀ k, k ≠ key → d.scopes k = c.scopes k := fun k hne => by
    simp [hd, Function.update_of_ne hne]
  have kept : ∀ i, (d.tokens i).scopeKey = (c.tokens i).scopeKey ∧
      (d.tokens i).state = (c.tokens i).state ∧
      (d.tokens i).outstanding = (c.tokens i).outstanding := fun i => by
    rcases eq_or_ne i id with rfl | hne
    · rw [self]
      exact ⟨rfl, rfl, rfl⟩
    · rw [same i hne]
      exact ⟨rfl, rfl, rfl⟩
  have outs : ∀ k, d.outstanding k = c.outstanding k := fun k => by
    ext i
    rw [mem_outstanding, mem_outstanding, (kept i).1, (kept i).2.2]
    exact .rfl
  have waits : ∀ k, ∀ i ∈ d.waiting k, i ∈ c.waiting k ∨ i = id := fun k i hi => by
    rcases eq_or_ne k key with rfl | hne
    · rw [waiting, scope, List.map_append, List.map_singleton, List.mem_append,
        List.mem_singleton] at hi
      exact hi
    · rw [waiting, scopes k hne] at hi
      exact .inl hi
  refine ⟨⟨fun i hi => ?_, fun k => ?_, fun k hk => ?_⟩,
    .of_tokens (Nat.le_refl _) ?_ ?_ ?_ ?_ rfl, ?_⟩
  · rcases eq_or_ne i id with rfl | hne
    · rw [self]
      obtain ⟨settled, released, -⟩ := tsound.queued queued
      exact ⟨⟨tsound.owned, tsound.controlled, tsound.state,
        fun _ => ⟨settled, released, .inr rfl⟩, fun h => (by cases queued.symm.trans h),
        fun h => (by cases queued.symm.trans h)⟩, known⟩
    · rw [same i hne]
      exact sound.tokens i hi
  · have before := sound.scopes k
    rcases eq_or_ne k key with rfl | hne
    · have waits : d.waiting k = c.waiting k ++ [id] := by
        rw [waiting, scope, List.map_append, List.map_singleton, waiting]
      refine ⟨?_, ?_, ?_, ?_, fun i hi => ?_⟩
      · rw [scope, outs]
        exact before.concurrent
      · rw [scope]
        exact before.bounded
      · rw [waits, List.length_append, List.length_singleton, waiting, List.length_map]
        exact room
      · rw [waits, List.nodup_append]
        refine ⟨before.nodup, by simp, fun i hi j hj same => apart ?_⟩
        rw [List.mem_singleton.mp hj] at same
        exact same ▸ hi
      · rw [waits, List.mem_append, List.mem_singleton] at hi
        rcases hi with old | rfl
        · have hne : i ≠ id := by
            rintro rfl
            exact apart old
          rw [same i hne]
          exact before.parked i old
        · rw [self]
          exact ⟨here, mine, .inl ⟨queued, rfl⟩⟩
    · have waits : d.waiting k = c.waiting k := by rw [waiting, scopes k hne, waiting]
      refine ⟨?_, ?_, waits ▸ before.capacity, waits ▸ before.nodup, fun i hi => ?_⟩
      · rw [scopes k hne, outs]
        exact before.concurrent
      · rw [scopes k hne]
        exact before.bounded
      · rw [waits] at hi
        have parked := before.parked i hi
        have hid : i ≠ id := by
          rintro rfl
          exact hne (parked.2.1.symm.trans mine)
        rw [same i hid]
        exact parked
  · have hne : k ≠ key := by
      rintro rfl
      exact hk (mine ▸ known)
    rw [scopes k hne]
    exact sound.absent k hk
  · intro k
    rcases eq_or_ne k key with rfl | hne
    · rw [scope]
    · rw [scopes k hne]
  · exact fun i _ => ⟨(kept i).1, (kept i).2.1, fun h => (kept i).2.2 ▸ h⟩
  · exact fun i fresh hi => absurd hi (Nat.not_lt.mpr fresh)
  · intro k i hi
    refine (waits k i hi).imp_right ?_
    rintro rfl
    exact ⟨here, by rw [(kept i).2.1, queued]; decide⟩
  · intro k hne
    refine .of_same (Nat.le_refl _) (scopes k hne) fun i _ hi => same i ?_
    rintro rfl
    exact hne (hi.symm.trans mine)

/-- The request that has arrived, once the queue is served. -/
structure Ready (config : ProviderAdmissionConfig) (now : ℚ) (key : String)
    (c d : ProviderAdmissionController) : Prop where
  served : Served config now key c d
  here : c.issued < d.issued
  mine : (d.tokens c.issued).scopeKey = key
  queued : (d.tokens c.issued).state = .queued
  apart : c.issued ∉ d.waiting key

theorem Sound.ready (sound : Sound config c) (scopeLabel : String)
    (priority : AdmissionPriorityClass)
    (quiet : (c.scopes key).queue = [] ∨ Quiet config now c) :
    Ready config now key c ((c.arrive key scopeLabel priority).pumpWaiting config now key) := by
  have arrived : Served config now key c (c.arrive key scopeLabel priority) := sound.arrive
  have apart : ∀ k, c.issued ∉ (c.arrive key scopeLabel priority).waiting k := fun k mem => by
    rw [arrive_waiting sound] at mem
    exact absurd ((sound.scopes k).parked _ mem).1 (Nat.lt_irrefl _)
  have fresh : c.issued < (c.arrive key scopeLabel priority).issued := by
    rw [arrive_issued]
    exact Nat.lt_succ_self _
  have here : Ready config now key c (c.arrive key scopeLabel priority) :=
    ⟨arrived, fresh, by rw [arrive_token], by rw [arrive_token], apart key⟩
  rw [pumpWaiting, arrive_scopes sound]
  split
  · exact here
  · rename_i waits
    have quiet' : Quiet config now (c.arrive key scopeLabel priority) := by
      intro k _ i mem cancelled
      rw [arrive_waiting sound] at mem
      rw [arrive_tokens_of_lt ((sound.scopes k).parked i mem).1] at cancelled
      rw [arrive_scopes sound]
      refine quiet.resolve_left (fun h => waits (by rw [h]; rfl)) k ?_ i mem cancelled
      by_contra absent
      rw [waiting, sound.absent k absent] at mem
      cases mem
    have pumped := arrived.sound.pump quiet'
    have token := (pumped.scopes key).tokens c.issued fresh here.mine
    rw [if_neg fun h => apart key h.1] at token
    refine ⟨arrived.trans pumped.served, pumped.issued ▸ fresh, ?_, ?_, ?_⟩
    · rw [token]
      exact here.mine
    · rw [token]
      exact here.queued
    · exact fun mem => apart key ((pumped.scopes key).waiting_subset mem)

theorem Sound.reserve (sound : Sound config c) (scopeLabel : String)
    (priority : AdmissionPriorityClass)
    (quiet : (c.scopes key).queue = [] ∨ Quiet config now c) :
    Served config now key c (c.reserve config now key scopeLabel priority).1 := by
  have ready := sound.ready scopeLabel priority quiet
  rw [ProviderAdmissionController.reserve]
  split
  · rename_i free
    exact ready.served.trans
      (ready.served.sound.grant_served ready.here ready.mine ready.queued ready.apart free)
  · split
    · exact ready.served
    · rename_i room
      exact ready.served.trans (ready.served.sound.park ready.here ready.mine ready.queued
        ready.apart priority (Nat.lt_of_not_le room))

/-! ## Steps -/

theorem Sound.releaseToken (sound : Sound config c) (granted : c.Granted id)
    (quiet : (c.tokens id).settled = false → Quiet config now (c.giveBack id)) :
    Served config now (c.tokens id).scopeKey c (c.releaseToken config now id) := by
  rcases settled : (c.tokens id).settled with _ | _
  · rw [releaseToken_of_known settled (sound.tokens id granted.1).2, giveBack_eq]
    exact (sound.returned granted settled _ (quiet settled)).1
  · rw [releaseToken_of_settled settled]
    exact .refl sound

theorem Sound.settleToken (sound : Sound config c) (granted : c.Granted id)
    (quiet : (c.tokens id).settled = false → Quiet config now (c.giveBack id)) :
    Served config now (c.tokens id).scopeKey c (c.settleToken config now id) := by
  rw [ProviderAdmissionController.settleToken]
  split
  · exact .refl sound
  · exact sound.releaseToken granted quiet

theorem Sound.release (sound : Sound config c) (granted : c.Granted id)
    (quiet : (c.tokens id).settled = false → Quiet config now (c.giveBack id)) :
    Served config now (c.tokens id).scopeKey c (c.release config now id) := by
  obtain ⟨tsound, known⟩ := sound.tokens id granted.1
  rcases settled : (c.tokens id).settled with _ | _
  · have unreleased : (c.tokens id).released = false := by
      by_contra released
      rw [Bool.not_eq_false] at released
      cases settled.symm.trans ((tsound.admitted granted.2).1 released)
    rw [release_of_granted granted.2 settled unreleased tsound.controlled known]
    exact (sound.returned granted settled true (quiet settled)).1
  · have cases : c.release config now id = c ∨
        c.release config now id = c.setToken id { c.tokens id with released := true } :=
      release_of_settled granted.2 settled
    rcases cases with same | marked
    · rw [same]
      exact .refl sound
    · rw [marked]
      refine sound.setToken_served granted.1 (tsound.mark granted.2 settled) rfl rfl ?_ ?_
      · simp [AdmissionToken.outstanding, settled]
      · intro key mem
        rcases ((sound.scopes key).parked id mem).2.2 with h | h
        · cases granted.2.symm.trans h.1
        · cases granted.2.symm.trans h.1

/-! ## Calls on tokens that were handed out -/

/-- The calls that callers make: on a token from its grant on, and no cancellation. -/
def ByCaller (c : ProviderAdmissionController) : ℚ × AdmissionEvent → Prop
  | (_, .settleToken id) => c.Granted id
  | (_, .release id) => c.Granted id
  | (_, .releaseToken id) => c.Granted id
  | (_, .resume id) => id < c.issued
  | (_, .cancel _) => False
  | (_, .reserve ..) => True
  | (_, .openCooldown ..) => True

instance (made : ℚ × AdmissionEvent) : Decidable (c.ByCaller made) := by
  rcases made with ⟨_, _ | _ | _ | _ | _ | _ | _⟩ <;> unfold ByCaller <;> infer_instance

def NoneCancelled (c : ProviderAdmissionController) : Prop :=
  ∀ id < c.issued, (c.tokens id).state ≠ .cancelled

theorem Served.noneCancelled (served : Served config now own c d) (none : NoneCancelled c) :
    NoneCancelled d := by
  intro id here cancelled
  obtain ⟨before, h⟩ := (served.serves.cancelled id here).mp cancelled
  exact none id before h

theorem Sound.quiet (sound : Sound config c) (none : NoneCancelled c) : Quiet config now c :=
  fun key _ id mem cancelled =>
    absurd cancelled (none id ((sound.scopes key).parked id mem).1)

/-- Without a cancelled token the pump after a settlement finds none. -/
theorem Sound.quiet_giveBack (sound : Sound config c) (none : NoneCancelled c) (now : ℚ)
    (here : id < c.issued) : Quiet config now (c.giveBack id) := by
  intro key _ other mem cancelled
  have state : ((c.giveBack id).tokens other).state = (c.tokens other).state := by
    rcases eq_or_ne other id with rfl | hne
    · simp [ProviderAdmissionController.giveBack]
    · simp [ProviderAdmissionController.giveBack, Function.update_of_ne hne]
  have waits : (c.giveBack id).waiting key = c.waiting key := by
    rcases eq_or_ne key (c.tokens id).scopeKey with rfl | hne
    · simp [waiting, ProviderAdmissionController.giveBack]
    · simp [waiting, ProviderAdmissionController.giveBack, Function.update_of_ne hne]
  rw [waits] at mem
  rw [state] at cancelled
  exact absurd cancelled (none other ((sound.scopes key).parked other mem).1)

/-- Opening a cooldown changes one deadline. -/
theorem openCooldown_cases (config : ProviderAdmissionConfig) (now : ℚ)
    (c : ProviderAdmissionController) (key : String) (retryAfterMs : Option Nat) :
    c.openCooldown config now key retryAfterMs = c ∨
      ∃ cooldownUntil, key ∈ c.keys ∧ c.openCooldown config now key retryAfterMs =
        c.setScope key { c.scopes key with cooldownUntil := some cooldownUntil } := by
  unfold openCooldown
  split
  · exact .inr ⟨_, ‹_›, rfl⟩
  · exact .inl rfl

theorem Sound.openCooldown (sound : Sound config c) (retryAfterMs : Option Nat) :
    Sound config (c.openCooldown config now key retryAfterMs) := by
  rcases openCooldown_cases config now c key retryAfterMs with
    same | ⟨cooldownUntil, known, opened⟩
  · rw [same]
    exact sound
  · rw [opened]
    exact sound.setScope _ known rfl (.refl _)

/-- An event other than a cooldown serves its scope. -/
theorem Sound.served_of_caller (sound : Sound config c) (none : NoneCancelled c)
    {event : AdmissionEvent} (caller : c.ByCaller (now, event)) :
    (∃ key retryAfterMs, event = .openCooldown key retryAfterMs) ∨
      Served config now (c.eventScope event) c (c.apply config (now, event)) := by
  cases event with
  | openCooldown key retryAfterMs => exact .inl ⟨key, retryAfterMs, rfl⟩
  | cancel id => exact caller.elim
  | reserve key scopeLabel priority =>
      exact .inr (sound.reserve scopeLabel priority (.inr (sound.quiet none)))
  | resume id => exact .inr (sound.resume caller)
  | settleToken id =>
      exact .inr (sound.settleToken caller fun _ => sound.quiet_giveBack none now caller.1)
  | release id => exact .inr (sound.release caller fun _ => sound.quiet_giveBack none now caller.1)
  | releaseToken id =>
      exact .inr (sound.releaseToken caller fun _ => sound.quiet_giveBack none now caller.1)

theorem Sound.step_of_caller (sound : Sound config c ∧ NoneCancelled c)
    {made : ℚ × AdmissionEvent} (caller : c.ByCaller made) :
    Sound config (c.apply config made) ∧ NoneCancelled (c.apply config made) := by
  obtain ⟨now, event⟩ := made
  rcases sound.1.served_of_caller sound.2 caller with ⟨key, retryAfterMs, rfl⟩ | served
  · refine ⟨sound.1.openCooldown retryAfterMs, ?_⟩
    rcases openCooldown_cases config now c key retryAfterMs with
      same | ⟨cooldownUntil, -, opened⟩
    · rw [apply, same]
      exact sound.2
    · rw [apply, opened]
      exact sound.2
  · exact ⟨served.sound, served.noneCancelled sound.2⟩

theorem sound_of_run {labels : List (ℚ × AdmissionEvent)}
    (run : Run (Guarded (Steps config) ByCaller) .empty labels c) :
    Sound config c ∧ NoneCancelled c := by
  refine run.invariant (I := fun c => Sound config c ∧ NoneCancelled c) ?_
    ⟨sound_empty, fun _ h => absurd h (Nat.not_lt_zero _)⟩
  rintro a label b sound ⟨caller, rfl⟩
  exact Sound.step_of_caller sound caller

/-! ## Conservation of permits -/

structure PermitsConserved (config : ProviderAdmissionConfig) (c : ProviderAdmissionController) :
    Prop where
  concurrent : ∀ key ∈ c.keys, (c.scopes key).concurrent = (c.outstanding key).card
  bounded : ∀ key ∈ c.keys, (c.scopes key).concurrent ≤ config.maxConcurrentPerScope
  capacity : ∀ key ∈ c.keys, (c.scopes key).queue.length ≤ config.queueCapacityPerScope

/-- What one call may do: `id` is granted outside a cooldown only, its permit goes back
at the first call and nothing happens at a later one, and another scope changes only by
grants to its waiting entries. -/
structure CallConserves (now : ℚ) (event : AdmissionEvent) (c d : ProviderAdmissionController) :
    Prop where
  cooled : ∀ id, d.Granted id → ¬ c.Granted id → Cooled now (c.scopes (d.tokens id).scopeKey)
  returned : ∀ id, event.Returns id → (d.tokens id).outstanding = false
  once : ∀ id, c.Granted id → (c.tokens id).outstanding = false →
    (d.tokens id).outstanding = false
  again : ∀ id, event.Returns id → (c.tokens id).outstanding = false →
    d.scopes = c.scopes ∧ d.grants = c.grants ∧
      ∀ other, (d.tokens other).outstanding = (c.tokens other).outstanding
  apart : ∀ key ≠ c.eventScope event, OnlyGranted now c d key

theorem granted_of_returns {event : AdmissionEvent} (caller : c.ByCaller (now, event))
    (returns : event.Returns id) : c.Granted id := by
  rcases returns with rfl | rfl | rfl <;> exact caller

/-- A call on a token whose permit has gone back. -/
theorem Sound.apply_of_returned (sound : Sound config c) (now : ℚ) {event : AdmissionEvent}
    (granted : c.Granted id) (returns : event.Returns id)
    (gone : (c.tokens id).outstanding = false) :
    c.apply config (now, event) = c ∨
      c.apply config (now, event) = c.setToken id { c.tokens id with released := true } := by
  have settled : (c.tokens id).settled = true := by
    rw [(sound.tokens id granted.1).1.outstanding_eq granted.2] at gone
    simpa using gone
  rcases returns with rfl | rfl | rfl
  · exact .inl (by simp [apply, ProviderAdmissionController.settleToken, settled])
  · exact release_of_settled granted.2 settled
  · exact .inl (releaseToken_of_settled settled)

/-- A call on a token whose permit is in flight. -/
theorem Sound.apply_of_outstanding (sound : Sound config c) (now : ℚ) {event : AdmissionEvent}
    (granted : c.Granted id) (returns : event.Returns id)
    (flight : (c.tokens id).outstanding = true) :
    ∃ released, c.apply config (now, event) = (c.afterReturn id released).pump config now := by
  obtain ⟨tsound, known⟩ := sound.tokens id granted.1
  obtain ⟨-, settled, released⟩ := AdmissionToken.outstanding_iff.mp flight
  rcases returns with rfl | rfl | rfl
  · refine ⟨(c.tokens id).released, ?_⟩
    rw [apply, ProviderAdmissionController.settleToken, if_neg (by simp [settled, released])]
    exact releaseToken_of_known settled known
  · exact ⟨true, release_of_granted granted.2 settled released tsound.controlled known⟩
  · exact ⟨(c.tokens id).released, releaseToken_of_known settled known⟩

/-- A call gives a permit back. -/
theorem Sound.outstanding_of_returns (sound : Sound config c) (none : NoneCancelled c)
    {event : AdmissionEvent} (caller : c.ByCaller (now, event)) (returns : event.Returns id) :
    ((c.apply config (now, event)).tokens id).outstanding = false := by
  have granted := granted_of_returns caller returns
  rcases flight : (c.tokens id).outstanding with _ | _
  · rcases sound.apply_of_returned now granted returns flight with same | marked
    · rw [same]
      exact flight
    · rw [marked]
      simp [AdmissionToken.outstanding]
  · obtain ⟨released, heq⟩ := sound.apply_of_outstanding now granted returns flight
    rw [heq]
    exact (sound.returned granted (AdmissionToken.outstanding_iff.mp flight).2.1 released
      (sound.quiet_giveBack none now granted.1)).2

/-- A call waits behind another that meets a provider limit; it is granted by the call
that arrives after the cooldown, which then waits itself. -/
def limitedRun : List (ℚ × AdmissionEvent) :=
  [(0, .reserve "scope" "label" .interactive), (1, .reserve "scope" "label" .background),
   (2, .openCooldown "scope" none), (2, .settleToken 0),
   (1500, .releaseToken 0), (2000, .reserve "scope" "label" .title), (3002, .release 0),
   (3003, .reserve "scope" "label" .title), (3004, .resume 1), (3005, .release 1)]

end ProviderAdmissionController

end AdCoder.ProviderAdmission
