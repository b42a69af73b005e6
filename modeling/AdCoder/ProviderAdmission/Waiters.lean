import AdCoder.ProviderAdmission.AdmissionRuns

/-!
# Callers that wait

A waiting caller is resumed by a pump only, and besides the arrival of another
request only a permit that goes back pumps the queues: no timer is armed for the
end of a cooldown.
-/

namespace AdCoder.ProviderAdmission.ProviderAdmissionController

open Foundation

variable {config : ProviderAdmissionConfig} {now : ℚ} {c d e : ProviderAdmissionController}
  {key : String} {id : Nat}

/-- A granted token is not settled yet. -/
def InFlight (c : ProviderAdmissionController) : Prop :=
  ∃ id < c.issued, (c.tokens id).outstanding = true

/-- A live caller waits only while a granted token is still to be settled. -/
def NoneStranded (c : ProviderAdmissionController) : Prop :=
  ∀ key ∈ c.keys, ∀ id ∈ c.waiting key,
    (c.tokens id).unowned = false → (c.tokens id).state = .queued → c.InFlight

instance : Decidable c.InFlight :=
  inferInstanceAs (Decidable (∃ id, id < c.issued ∧ (c.tokens id).outstanding = true))
instance : Decidable c.NoneStranded :=
  inferInstanceAs (Decidable (∀ key ∈ c.keys, ∀ id ∈ c.waiting key, _))

instance (scope : ScopeRuntime) : Decidable (Cooled now scope) :=
  decidable_of_iff (scope.cooldownUntil.all (· ≤ now) = true) (by
    rcases h : scope.cooldownUntil with _ | cooldownUntil <;> simp [Cooled, h])

/-! ## What stays in flight -/

/-- Permits in flight stay in flight. -/
structure Keeps (c d : ProviderAdmissionController) : Prop where
  issued : c.issued ≤ d.issued
  outstanding : ∀ id < c.issued, (c.tokens id).outstanding = true →
    (d.tokens id).outstanding = true

theorem Keeps.trans (first : Keeps c d) (second : Keeps d e) : Keeps c e where
  issued := first.issued.trans second.issued
  outstanding := fun id here out =>
    second.outstanding id (here.trans_le first.issued) (first.outstanding id here out)

theorem Keeps.inFlight (keeps : Keeps c d) (flight : c.InFlight) : d.InFlight := by
  obtain ⟨id, here, out⟩ := flight
  exact ⟨id, here.trans_le keeps.issued, keeps.outstanding id here out⟩

theorem Pumped.keeps (pumped : Pumped config now c d) : Keeps c d where
  issued := pumped.issued.ge
  outstanding := by
    intro id here out
    rcases pumped.tokens here with same | ⟨queued, -⟩
    · rw [same]
      exact out
    · cases queued.symm.trans (AdmissionToken.outstanding_iff.mp out).1

/-- Nothing in flight means that no counter is up. -/
theorem Sound.concurrent_eq_zero (sound : Sound config c) (flight : ¬ c.InFlight) :
    (c.scopes key).concurrent = 0 := by
  rw [(sound.scopes key).concurrent, Finset.card_eq_zero, Finset.eq_empty_iff_forall_notMem]
  intro id mem
  obtain ⟨here, -, out⟩ := mem_outstanding.mp mem
  exact flight ⟨id, here, out⟩

theorem Sound.canGrant_iff_cooled (sound : Sound config c) (flight : ¬ c.InFlight) :
    canGrant config now (c.scopes key) = true ↔ Cooled now (c.scopes key) := by
  rw [canGrant_iff, sound.concurrent_eq_zero flight]
  exact ⟨fun h => h.2, fun h => ⟨config.concurrent_pos, h⟩⟩

/-! ## What a pump resumes -/

/-- A caller that waits outside a cooldown leaves a permit in flight after a pump. -/
theorem Sound.inFlight_of_cooled (sound : Sound config c) (quiet : Quiet config now c)
    (known : key ∈ c.keys) (waits : id ∈ c.waiting key) (cooled : Cooled now (c.scopes key)) :
    (c.pump config now).InFlight := by
  have pumped := sound.pump quiet
  by_contra none
  have parked := (sound.scopes key).parked id waits
  have token := (pumped.scopes key).tokens id parked.1 parked.2.1
  have tsound := (sound.tokens id parked.1).1
  -- the caller is not resumed, for its permit would be in flight
  have still : id ∈ (c.pump config now).waiting key := by
    by_contra left
    rw [if_pos ⟨waits, left⟩] at token
    have queued := ((pumped.scopes key).granted id parked.1 parked.2.1 waits left).1
    refine none ⟨id, pumped.issued.symm ▸ parked.1, ?_⟩
    rw [token]
    exact tsound.outstanding_markAdmitted queued
  have free : canGrant config now ((c.pump config now).scopes key) = true := by
    rw [pumped.sound.canGrant_iff_cooled none]
    intro cooldownUntil h
    rw [(pumped.scopes key).cooldown] at h
    exact cooled cooldownUntil h
  obtain ⟨entry, hentry, rfl⟩ := List.mem_map.mp still
  have drained : Drained config now (c.pump config now) key := pump_drained known
  rcases drained with held | unowned
  · rw [free] at held
    cases held
  · have owned := (pumped.sound.tokens entry.token (pumped.issued.symm ▸ parked.1)).1.owned
    rw [unowned entry hentry] at owned
    cases owned

/-- While every scope in which a caller waits cools down, a pump does nothing. -/
theorem Sound.pump_of_cooling (sound : Sound config c) (quiet : Quiet config now c)
    (flight : ¬ c.InFlight)
    (cooling : ∀ key ∈ c.keys, c.waiting key ≠ [] → ¬ Cooled now (c.scopes key)) :
    ¬ (c.pump config now).InFlight ∧
      ∀ key, c.waiting key ⊆ (c.pump config now).waiting key := by
  have pumped := sound.pump quiet
  have stuck : ∀ id < c.issued, id ∈ c.waiting (c.tokens id).scopeKey →
      ¬ Cooled now (c.scopes (c.tokens id).scopeKey) := fun id here mem =>
    cooling _ (sound.tokens id here).2 (List.ne_nil_of_mem mem)
  constructor
  · rintro ⟨id, here, out⟩
    rw [pumped.issued] at here
    rcases pumped.tokens here with same | ⟨-, -, cooled, mem⟩
    · exact flight ⟨id, here, same ▸ out⟩
    · exact stuck id here mem cooled
  · intro key id mem
    obtain ⟨here, mine, -⟩ := (sound.scopes key).parked id mem
    by_contra left
    have granted := (pumped.scopes key).granted id here mine mem left
    exact stuck id here (mine ▸ mem) (mine ▸ granted.2)

/-! ## Strandedness, step by step -/

/-- In a sound controller without cancellations every waiting entry is alive. -/
theorem Sound.noneStranded_iff (sound : Sound config c) (none : NoneCancelled c) :
    c.NoneStranded ↔ (∀ key, c.waiting key = []) ∨ c.InFlight := by
  constructor
  · intro resumed
    by_contra h
    rw [not_or, not_forall] at h
    obtain ⟨⟨key, waits⟩, flight⟩ := h
    obtain ⟨id, mem⟩ := List.exists_mem_of_ne_nil _ waits
    have known : key ∈ c.keys := by
      by_contra absent
      exact waits (by rw [waiting, sound.absent key absent]; rfl)
    obtain ⟨here, -, parked⟩ := (sound.scopes key).parked id mem
    rcases parked with queued | cancelled
    · exact flight (resumed key known id mem (sound.tokens id here).1.owned queued.1)
    · exact none id here cancelled.1
  · rintro (empty | flight) key _ id mem _ _
    · rw [empty key] at mem
      cases mem
    · exact flight

theorem Sound.noneStranded_of_keeps (sound : Sound config c) (none : NoneCancelled c)
    (dsound : Sound config d) (dnone : NoneCancelled d) (keeps : Keeps c d)
    (waits : ∀ key, d.waiting key ⊆ c.waiting key) (resumed : c.NoneStranded) :
    d.NoneStranded := by
  rw [dsound.noneStranded_iff dnone]
  rcases (sound.noneStranded_iff none).mp resumed with empty | flight
  · refine .inl fun key => List.eq_nil_iff_forall_not_mem.mpr fun id mem => ?_
    have := waits key mem
    rw [empty key] at this
    cases this
  · exact .inr (keeps.inFlight flight)

/-- What a returned permit may leave: another permit in flight, nobody waiting, or a
caller that waits outside a cooldown. -/
def ReturnResumes (now : ℚ) (c : ProviderAdmissionController) (id : Nat) : Prop :=
  (∃ other < c.issued, other ≠ id ∧ (c.tokens other).outstanding = true) ∨
    (c.tokens id).outstanding = false ∨ (∀ key ∈ c.keys, c.waiting key = []) ∨
    ∃ key ∈ c.keys, c.waiting key ≠ [] ∧ Cooled now (c.scopes key)

/-- The last permit in flight does not go back while every scope with a waiting caller
cools down, and nobody arrives at a scope that cools down while nothing is in flight. -/
def Resumable (c : ProviderAdmissionController) : ℚ × AdmissionEvent → Prop
  | (now, .reserve key _ _) => c.InFlight ∨ Cooled now (c.scopes key)
  | (now, .settleToken id) => ReturnResumes now c id
  | (now, .release id) => ReturnResumes now c id
  | (now, .releaseToken id) => ReturnResumes now c id
  | (_, .resume _) => True
  | (_, .cancel _) => True
  | (_, .openCooldown ..) => True

instance : Decidable (ReturnResumes now c id) := by
  unfold ReturnResumes
  infer_instance

instance (made : ℚ × AdmissionEvent) : Decidable (c.Resumable made) := by
  rcases made with ⟨_, _ | _ | _ | _ | _ | _ | _⟩ <;> unfold Resumable <;> infer_instance

theorem afterReturn_inFlight (released : Bool) :
    (c.afterReturn id released).InFlight ↔
      ∃ other < c.issued, other ≠ id ∧ (c.tokens other).outstanding = true := by
  constructor
  · rintro ⟨other, here, out⟩
    rcases eq_or_ne other id with rfl | hne
    · simp [afterReturn, AdmissionToken.outstanding] at out
    · exact ⟨other, here, hne, by simpa [afterReturn, Function.update_of_ne hne] using out⟩
  · rintro ⟨other, here, hne, out⟩
    exact ⟨other, here, by simpa [afterReturn, Function.update_of_ne hne] using out⟩

theorem afterReturn_cooled (released : Bool) (key : String) :
    Cooled now ((c.afterReturn id released).scopes key) ↔ Cooled now (c.scopes key) := by
  rcases eq_or_ne key (c.tokens id).scopeKey with rfl | hne
  · simp [afterReturn, Cooled]
  · simp [afterReturn, Function.update_of_ne hne]

theorem Sound.returns_iff (sound : Sound config c) (none : NoneCancelled c)
    (resumed : c.NoneStranded) {event : AdmissionEvent} (caller : c.ByCaller (now, event))
    (returns : event.Returns id) :
    (c.apply config (now, event)).NoneStranded ↔ ReturnResumes now c id := by
  have granted := granted_of_returns caller returns
  have after := Sound.step_of_caller ⟨sound, none⟩ caller
  rcases flight : (c.tokens id).outstanding with _ | _
  · refine ⟨fun _ => .inr (.inl flight), fun _ => ?_⟩
    rcases sound.apply_of_returned now granted returns flight with same | marked
    · rw [same]
      exact resumed
    · rw [marked] at after ⊢
      refine sound.noneStranded_of_keeps none after.1 after.2 ⟨Nat.le_refl _, ?_⟩
        (fun _ => List.Subset.refl _) resumed
      intro other _ out
      have hne : other ≠ id := by
        rintro rfl
        cases flight.symm.trans out
      simpa [Function.update_of_ne hne] using out
  · obtain ⟨released, heq⟩ := sound.apply_of_outstanding now granted returns flight
    have unsettled := (AdmissionToken.outstanding_iff.mp flight).2.1
    have back := (sound.afterReturn now granted unsettled released).sound
    have quiet : Quiet config now (c.afterReturn id released) :=
      quiet_afterReturn released (sound.quiet_giveBack none now granted.1)
    have pumped := back.pump quiet
    rw [heq] at after ⊢
    rw [after.1.noneStranded_iff after.2]
    constructor
    · intro resumes
      by_contra stuck
      rw [ReturnResumes, not_or, not_or, not_or] at stuck
      obtain ⟨alone, -, waits, cooling⟩ := stuck
      rw [← afterReturn_inFlight released] at alone
      have idle := back.pump_of_cooling quiet alone fun key known mem cooled => by
        rw [afterReturn_waiting] at mem
        rw [afterReturn_cooled] at cooled
        exact cooling ⟨key, known, mem, cooled⟩
      rcases resumes with empty | here
      · refine waits fun key _ => ?_
        rw [← afterReturn_waiting c id released key]
        refine List.eq_nil_iff_forall_not_mem.mpr fun other mem => ?_
        have := idle.2 key mem
        rw [empty key] at this
        cases this
      · exact idle.1 here
    · rintro (others | gone | empty | ⟨key, known, waits, cooled⟩)
      · exact .inr (pumped.keeps.inFlight ((afterReturn_inFlight released).mpr others))
      · cases gone.symm.trans flight
      · refine .inl fun key => List.eq_nil_iff_forall_not_mem.mpr fun other mem => ?_
        have before := (pumped.scopes key).waiting_subset mem
        rw [afterReturn_waiting] at before
        by_cases known : key ∈ c.keys
        · rw [empty key known] at before
          cases before
        · rw [waiting, sound.absent key known] at before
          cases before
      · obtain ⟨other, mem⟩ := List.exists_mem_of_ne_nil _ waits
        rw [← afterReturn_waiting c id released key] at mem
        exact .inr (back.inFlight_of_cooled quiet known mem
          ((afterReturn_cooled released key).mpr cooled))

/-! ### Arrivals -/

theorem Sound.keeps_ready (sound : Sound config c) (none : NoneCancelled c) (scopeLabel : String)
    (priority : AdmissionPriorityClass) :
    Keeps c ((c.arrive key scopeLabel priority).pumpWaiting config now key) := by
  have arrived : Served config now key c (c.arrive key scopeLabel priority) := sound.arrive
  have keeps : Keeps c (c.arrive key scopeLabel priority) := by
    refine ⟨arrived.serves.issued, fun id here out => ?_⟩
    rw [arrive_tokens_of_lt here]
    exact out
  rw [pumpWaiting]
  split
  · exact keeps
  · exact keeps.trans
      (arrived.sound.pump (arrived.sound.quiet (arrived.noneCancelled none))).keeps

/-- A request is granted, turned away or parked once the queue is served. -/
theorem reserve_cases (config : ProviderAdmissionConfig) (now : ℚ)
    (c : ProviderAdmissionController) (key scopeLabel : String)
    (priority : AdmissionPriorityClass) :
    let ready := (c.arrive key scopeLabel priority).pumpWaiting config now key
    (canGrant config now (ready.scopes key) = true ∧
        (c.reserve config now key scopeLabel priority).1 = ready.grant key c.issued) ∨
      (canGrant config now (ready.scopes key) = false ∧
        config.queueCapacityPerScope ≤ (ready.scopes key).queue.length ∧
        (c.reserve config now key scopeLabel priority).1 = ready) ∨
      (canGrant config now (ready.scopes key) = false ∧
        (ready.scopes key).queue.length < config.queueCapacityPerScope ∧
        (c.reserve config now key scopeLabel priority).1 =
          ready.park now key c.issued priority) := by
  intro ready
  rw [reserve]
  split
  · rename_i free
    exact .inl ⟨free, rfl⟩
  · rename_i held
    rw [Bool.not_eq_true] at held
    split
    · rename_i full
      exact .inr (.inl ⟨held, full, rfl⟩)
    · rename_i room
      exact .inr (.inr ⟨held, Nat.lt_of_not_le room, rfl⟩)

theorem Sound.keeps_reserve (sound : Sound config c) (none : NoneCancelled c) (now : ℚ)
    (key scopeLabel : String) (priority : AdmissionPriorityClass) :
    Keeps c (c.reserve config now key scopeLabel priority).1 := by
  have keeps : Keeps c ((c.arrive key scopeLabel priority).pumpWaiting config now key) :=
    sound.keeps_ready none scopeLabel priority
  rcases reserve_cases config now c key scopeLabel priority with
    ⟨-, heq⟩ | ⟨-, -, heq⟩ | ⟨-, -, heq⟩
  · rw [heq]
    refine ⟨keeps.issued, fun id here out => ?_⟩
    rw [grant_tokens, Function.update_of_ne (Nat.ne_of_lt here)]
    exact keeps.outstanding id here out
  · rw [heq]
    exact keeps
  · rw [heq]
    refine ⟨keeps.issued, fun id here out => ?_⟩
    rw [park_tokens, Function.update_of_ne (Nat.ne_of_lt here)]
    exact keeps.outstanding id here out

/-- With nothing in flight and nobody waiting the queue of an arrival is empty. -/
theorem Sound.ready_of_empty (sound : Sound config c) (empty : c.waiting key = [])
    (scopeLabel : String) (priority : AdmissionPriorityClass) :
    (c.arrive key scopeLabel priority).pumpWaiting config now key =
      c.arrive key scopeLabel priority := by
  have queue : (c.scopes key).queue = [] := List.map_eq_nil_iff.mp empty
  rw [pumpWaiting, arrive_scopes sound, queue]
  rfl

theorem Sound.reserve_iff (sound : Sound config c) (none : NoneCancelled c)
    (resumed : c.NoneStranded) (now : ℚ) (key scopeLabel : String)
    (priority : AdmissionPriorityClass) :
    (c.reserve config now key scopeLabel priority).1.NoneStranded ↔
      c.InFlight ∨ Cooled now (c.scopes key) := by
  have caller : c.ByCaller (now, .reserve key scopeLabel priority) := trivial
  have after : Sound config (c.reserve config now key scopeLabel priority).1 ∧
      NoneCancelled (c.reserve config now key scopeLabel priority).1 :=
    Sound.step_of_caller ⟨sound, none⟩ caller
  rw [after.1.noneStranded_iff after.2]
  by_cases flight : c.InFlight
  · exact ⟨fun _ => .inl flight,
      fun _ => .inr ((sound.keeps_reserve none now key scopeLabel priority).inFlight flight)⟩
  · have empty := ((sound.noneStranded_iff none).mp resumed).resolve_right flight
    have arrived : (c.arrive key scopeLabel priority).pumpWaiting config now key = _ :=
      sound.ready_of_empty (empty key) scopeLabel priority
    have free : canGrant config now (c.scopes key) = true ↔ Cooled now (c.scopes key) :=
      sound.canGrant_iff_cooled flight
    have queue : (c.scopes key).queue = [] := List.map_eq_nil_iff.mp (empty key)
    have cases := reserve_cases config now c key scopeLabel priority
    simp only [arrived, arrive_scopes sound, queue, List.length_nil] at cases
    rcases cases with ⟨granted, heq⟩ | ⟨-, full, -⟩ | ⟨held, -, heq⟩
    · refine ⟨fun _ => .inr (free.mp granted), fun _ => .inr ⟨c.issued, ?_, ?_⟩⟩
      · rw [heq, grant_issued, arrive_issued]
        exact Nat.lt_succ_self _
      · rw [heq, grant_tokens, Function.update_self, arrive_token]
        rfl
    · exact absurd full (Nat.not_le.mpr config.capacity_pos)
    · have cooling : ¬ Cooled now (c.scopes key) := fun cooled => by
        rw [free.mpr cooled] at held
        cases held
      refine ⟨fun h => ?_, fun h => absurd h (not_or.mpr ⟨flight, cooling⟩)⟩
      rw [heq] at h
      rcases h with nobody | ⟨id, here, out⟩
      · have mem : c.issued ∈ ((c.arrive key scopeLabel priority).park now key c.issued
            priority).waiting key := by simp [waiting]
        rw [nobody key] at mem
        cases mem
      · rw [park_issued, arrive_issued] at here
        rcases Nat.lt_succ_iff_lt_or_eq.mp here with before | rfl
        · rw [park_tokens, Function.update_of_ne (Nat.ne_of_lt before),
            arrive_tokens_of_lt before] at out
          exact absurd ⟨id, before, out⟩ flight
        · rw [park_tokens, Function.update_self, arrive_token] at out
          cases out

/-! ## Runs -/

theorem Sound.resumable_iff (sound : Sound config c) (none : NoneCancelled c)
    (resumed : c.NoneStranded) {made : ℚ × AdmissionEvent} (caller : c.ByCaller made) :
    (c.apply config made).NoneStranded ↔ c.Resumable made := by
  obtain ⟨now, event⟩ := made
  have after : Sound config (c.apply config (now, event)) ∧
      NoneCancelled (c.apply config (now, event)) :=
    Sound.step_of_caller ⟨sound, none⟩ caller
  cases event with
  | reserve key scopeLabel priority =>
      exact sound.reserve_iff none resumed now key scopeLabel priority
  | settleToken id => exact sound.returns_iff none resumed caller (.inl rfl)
  | release id => exact sound.returns_iff none resumed caller (.inr (.inl rfl))
  | releaseToken id => exact sound.returns_iff none resumed caller (.inr (.inr rfl))
  | cancel id => exact caller.elim
  | resume id =>
      refine iff_of_true ?_ trivial
      rcases sound.resume_cases caller (none id caller) with same | ⟨admitted, returned⟩
      · rw [apply, same]
        exact resumed
      · rw [apply, returned] at after ⊢
        refine sound.noneStranded_of_keeps none after.1 after.2 ⟨Nat.le_refl _, ?_⟩
          (fun _ => List.Subset.refl _) resumed
        intro other _ out
        rcases eq_or_ne other id with rfl | hne
        · simpa [AdmissionToken.outstanding] using out
        · simpa [Function.update_of_ne hne] using out
  | openCooldown key retryAfterMs =>
      refine iff_of_true ?_ trivial
      rcases openCooldown_cases config now c key retryAfterMs with same | ⟨deadline, -, opened⟩
      · rw [apply, same]
        exact resumed
      · rw [apply, opened] at after ⊢
        refine sound.noneStranded_of_keeps none after.1 after.2
          ⟨Nat.le_refl _, fun _ _ out => out⟩ (fun k => ?_) resumed
        rcases eq_or_ne k key with rfl | hne
        · simp [waiting]
        · simp [waiting, Function.update_of_ne hne]

/-- While every step is resumable no caller is stranded, and the first step that is not
strands one. -/
theorem none_stranded (config : ProviderAdmissionConfig) {labels : List (ℚ × AdmissionEvent)}
    {c : ProviderAdmissionController}
    (run : Run (Guarded (Steps config) fun c made => c.ByCaller made ∧ c.Resumable made)
      .empty labels c) :
    c.NoneStranded ∧
      ∀ made, c.ByCaller made → ((c.apply config made).NoneStranded ↔ c.Resumable made) := by
  have invariant : (Sound config c ∧ NoneCancelled c) ∧ c.NoneStranded := by
    refine run.invariant
      (I := fun c => (Sound config c ∧ NoneCancelled c) ∧ c.NoneStranded) ?_ ?_
    · rintro a made b ⟨sound, resumed⟩ ⟨⟨caller, resumable⟩, rfl⟩
      exact ⟨Sound.step_of_caller sound caller,
        (sound.1.resumable_iff sound.2 resumed caller).mpr resumable⟩
    · exact ⟨⟨sound_empty, fun _ h => absurd h (Nat.not_lt_zero _)⟩, fun _ h => by cases h⟩
  exact ⟨invariant.2, fun made caller =>
    invariant.1.1.resumable_iff invariant.1.2 invariant.2 caller⟩

/-- Two calls, the second after the first was settled. -/
def resumedRun : List (ℚ × AdmissionEvent) :=
  [(0, .reserve "scope" "label" .interactive), (1, .reserve "scope" "label" .background),
   (2, .settleToken 0), (3, .resume 1), (4, .openCooldown "scope" (some 10)),
   (20, .reserve "scope" "label" .title), (21, .release 1)]

theorem none_stranded_resumedRun :
    (resumedRun.foldl (apply defaultProviderAdmissionConfig) empty).NoneStranded ∧
      (resumedRun.foldl (apply defaultProviderAdmissionConfig) empty).grants = [0, 1, 2] :=
  ⟨(none_stranded defaultProviderAdmissionConfig
    (Run.guarded_foldl (fun _ _ => of_decide_eq_true)
      (by decide +kernel : Run.checked (apply defaultProviderAdmissionConfig)
        (fun c made => decide (c.ByCaller made ∧ c.Resumable made)) empty resumedRun = true))).1,
    by decide +kernel⟩

/-- The first call meets a provider limit, so its permit goes back during the cooldown. -/
def strandedRun : List (ℚ × AdmissionEvent) :=
  [(0, .reserve "scope" "label" .interactive), (1, .reserve "scope" "label" .background),
   (2, .openCooldown "scope" none), (2, .settleToken 0)]

/-- The second caller then waits with nothing in flight. -/
theorem none_stranded_refuted :
    ¬ ∀ labels c, Run (Guarded (Steps defaultProviderAdmissionConfig) ByCaller) .empty labels c →
      c.NoneStranded := by
  intro resumed
  have run := Run.guarded_foldl (fun _ _ => of_decide_eq_true)
    (by decide +kernel : Run.checked (apply defaultProviderAdmissionConfig)
      (fun c made => decide (c.ByCaller made)) empty strandedRun = true)
  have stranded : ¬ (strandedRun.foldl (apply defaultProviderAdmissionConfig) empty).NoneStranded :=
    by decide +kernel
  exact stranded (resumed _ _ run)

end AdCoder.ProviderAdmission.ProviderAdmissionController
