import AdCoder.ProviderAdmission.Controller
import Mathlib.Data.Finset.Card

/-!
# Permits and the queues of waiting callers

Pumping is a chain of single grants, each to an owned entry of a scope that can
grant. The accounting of a controller is kept by every grant, so by every pump;
what a pump does to a scope is read off the entries that leave its queue.
-/

namespace AdCoder.ProviderAdmission

/-! ## The scheduler's choice -/

section Scheduler

variable {config : ProviderAdmissionConfig} {now : ℚ} {tokens : Nat → AdmissionToken}
  {interactiveWaiting : Bool}

/-- The loop chooses an entry that it does not skip, by its position. -/
theorem bestCandidate_some {chosen : Candidate} {best : Option Candidate}
    (rest before : List QueueEntry)
    (found : bestCandidate config now tokens interactiveWaiting best before.length rest =
      some chosen) :
    best = some chosen ∨ ∃ front entry after, before ++ rest = front ++ entry :: after ∧
      front.length = chosen.index ∧ skips config now tokens interactiveWaiting entry = false := by
  induction rest generalizing before best with
  | nil => exact .inl found
  | cons entry rest ih =>
      rw [bestCandidate] at found
      have split : before ++ entry :: rest = (before ++ [entry]) ++ rest := by simp
      have length : before.length + 1 = (before ++ [entry]).length := by simp
      rw [length] at found
      rcases ih _ found with here | ⟨front, later, after, heq, hlen, hskip⟩
      · rcases hskip : skips config now tokens interactiveWaiting entry with _ | _
        · rw [hskip] at here
          by_cases beaten : Candidate.beatenBy best
              (config.priorityClasses.idxOf (effectivePriority config now entry))
              entry.enqueuedAt = true
          · simp only [Bool.false_eq_true, if_false, beaten, if_true, Option.some.injEq] at here
            exact .inr ⟨before, entry, rest, rfl, by rw [← here], hskip⟩
          · simp only [Bool.false_eq_true, if_false, beaten] at here
            exact .inl here
        · rw [hskip] at here
          exact .inl (by simpa using here)
      · exact .inr ⟨front, later, after, split.trans heq, hlen, hskip⟩

/-- The loop chooses nothing only when it skips every entry. -/
theorem bestCandidate_none {best : Option Candidate} {index : Nat} {rest : List QueueEntry}
    (found : bestCandidate config now tokens interactiveWaiting best index rest = none) :
    best = none ∧ ∀ entry ∈ rest, skips config now tokens interactiveWaiting entry = true := by
  induction rest generalizing best index with
  | nil => exact ⟨found, by simp⟩
  | cons entry rest ih =>
      rw [bestCandidate] at found
      obtain ⟨here, later⟩ := ih found
      rcases hskip : skips config now tokens interactiveWaiting entry with _ | _
      · rw [hskip] at here
        cases best with
        | none => simp [Candidate.beatenBy] at here
        | some best =>
            simp only [Bool.false_eq_true, if_false] at here
            split at here <;> cases here
      · rw [hskip] at here
        refine ⟨by simpa using here, ?_⟩
        intro other hother
        rcases List.mem_cons.mp hother with rfl | hrest
        · exact hskip
        · exact later other hrest

theorem dequeueCandidate_some {queue rest : List QueueEntry} {id : Nat}
    (chosen : dequeueCandidate config now tokens queue = some (id, rest)) :
    ∃ before entry after, queue = before ++ entry :: after ∧ rest = before ++ after ∧
      entry.token = id ∧ (tokens id).unowned = false := by
  rw [dequeueCandidate] at chosen
  rcases found : bestCandidate config now tokens (anyInteractiveWaiting config now tokens queue)
    none 0 queue with _ | best
  · simp [found] at chosen
  · rcases bestCandidate_some queue [] found with no | ⟨before, entry, after, heq, hlen, hskip⟩
    · cases no
    · rw [List.nil_append] at heq
      have here : queue[best.index]? = some entry := by
        rw [heq, ← hlen]
        simp
      have rest' : queue.eraseIdx best.index = before ++ after := by
        rw [heq, ← hlen, List.eraseIdx_append_of_length_le (Nat.le_refl _)]
        simp
      simp only [found, here, Option.map_some, Option.some.injEq, Prod.mk.injEq] at chosen
      have owned : (tokens entry.token).unowned = false := by
        rw [skips, Bool.or_eq_false_iff] at hskip
        exact hskip.1
      exact ⟨before, entry, after, heq, by rw [← chosen.2, rest'], chosen.1, chosen.1 ▸ owned⟩

/-- The scheduler chooses nothing only from a queue of placeholders: a deferred title
is passed over for an interactive entry. -/
theorem dequeueCandidate_none {queue : List QueueEntry}
    (nothing : dequeueCandidate config now tokens queue = none) :
    ∀ entry ∈ queue, (tokens entry.token).unowned = true := by
  rw [dequeueCandidate] at nothing
  rcases found : bestCandidate config now tokens (anyInteractiveWaiting config now tokens queue)
    none 0 queue with _ | best
  · have skipped := (bestCandidate_none found).2
    intro entry hentry
    by_contra owned
    rw [Bool.not_eq_true] at owned
    rcases interactive : anyInteractiveWaiting config now tokens queue with _ | _
    · have := skipped entry hentry
      simp [skips, owned, interactive] at this
    · obtain ⟨other, hother, here⟩ := List.any_eq_true.mp interactive
      rw [Bool.and_eq_true, Bool.not_eq_true', beq_iff_eq] at here
      have := skipped other hother
      simp [skips, here.1, here.2] at this
  · rcases bestCandidate_some queue [] found with no | ⟨before, entry, after, heq, hlen, -⟩
    · cases no
    · have here : queue[best.index]? = some entry := by
        rw [List.nil_append] at heq
        rw [heq, ← hlen]
        simp
      simp [found, here] at nothing

end Scheduler

/-! ## Single grants -/

namespace ProviderAdmissionController

variable {config : ProviderAdmissionConfig} {now : ℚ} {c d : ProviderAdmissionController}
  {key other : String} {id : Nat}

/-- One turn of the pump: an owned entry of a scope that can grant. -/
def GrantsOne (config : ProviderAdmissionConfig) (now : ℚ) (c d : ProviderAdmissionController) :
    Prop :=
  ∃ key ∈ c.keys, ∃ before entry after,
    canGrant config now (c.scopes key) = true ∧
    (c.scopes key).queue = before ++ entry :: after ∧
    (c.tokens entry.token).unowned = false ∧
    d = c.grantFrom key entry.token (before ++ after)

abbrev Grants (config : ProviderAdmissionConfig) (now : ℚ) :
    ProviderAdmissionController → ProviderAdmissionController → Prop :=
  Relation.ReflTransGen (GrantsOne config now)

theorem pumpScope_grants (known : key ∈ c.keys) (fuel : Nat) :
    Grants config now c (pumpScope config now key fuel c) := by
  induction fuel generalizing c with
  | zero => exact .refl
  | succ fuel ih =>
      rw [pumpScope]
      split
      · rename_i free
        rw [Bool.and_eq_true] at free
        split
        · exact .refl
        · rename_i id rest chosen
          obtain ⟨before, entry, after, heq, rfl, rfl, owned⟩ := dequeueCandidate_some chosen
          have one : GrantsOne config now c (c.grantFrom key entry.token (before ++ after)) :=
            ⟨key, known, before, entry, after, free.1, heq, owned, rfl⟩
          exact .head one (ih known)
      · exact .refl

theorem keys_of_grants (chain : Grants config now c d) : d.keys = c.keys := by
  induction chain with
  | refl => rfl
  | tail _ last ih =>
      obtain ⟨_, _, _, _, _, _, _, _, rfl⟩ := last
      exact ih

theorem pump_grants (c : ProviderAdmissionController) :
    Grants config now c (c.pump config now) := by
  have fold : ∀ keys : List String, keys ⊆ c.keys → ∀ d, Grants config now c d →
      Grants config now c
        (keys.foldl (fun c key => pumpScope config now key (c.scopes key).queue.length c) d) := by
    intro keys
    induction keys with
    | nil => exact fun _ _ chain => chain
    | cons key rest ih =>
        intro known d chain
        rw [List.cons_subset] at known
        have here : key ∈ d.keys := keys_of_grants chain ▸ known.1
        exact ih known.2 _ (chain.trans (pumpScope_grants here _))
  exact fold c.keys (List.Subset.refl _) c .refl

end ProviderAdmissionController

/-! ## Accounting -/

namespace AdmissionToken

/-- Granted, and neither settled nor released. -/
def outstanding (token : AdmissionToken) : Bool :=
  token.state == .admitted && !token.settled && !token.released

/-- Waiting in a queue, or cancelled there with its caller not yet resumed. -/
def Parked (token : AdmissionToken) : Prop :=
  (token.state = .queued ∧ token.call = .waiting) ∨
    (token.state = .cancelled ∧ token.call = .refused (.cancelled token.scopeLabel))

/-- What holds of every token that `reserve` constructs. -/
structure Sound (token : AdmissionToken) : Prop where
  owned : token.unowned = false
  controlled : token.controlled = true
  state : token.state = .queued ∨ token.state = .admitted ∨ token.state = .cancelled
  queued : token.state = .queued → token.settled = false ∧ token.released = false ∧
    (token.call = .idle ∨ token.call = .waiting)
  admitted : token.state = .admitted → (token.released = true → token.settled = true) ∧
    (token.call = .idle ∨ token.call = .woken)
  cancelled : token.state = .cancelled → token.settled = false ∧
    (token.call = .refused (.cancelled token.scopeLabel) ∨
      token.call = .failed (.cancelled token.scopeLabel))

variable {token : AdmissionToken}

theorem outstanding_iff : token.outstanding = true ↔
    token.state = .admitted ∧ token.settled = false ∧ token.released = false := by
  simp [outstanding, and_assoc]

theorem outstanding_of_state (h : token.state ≠ .admitted) : token.outstanding = false := by
  simp [outstanding, h]

/-- A sound token that was granted is outstanding until it is settled. -/
theorem Sound.outstanding_eq (sound : token.Sound) (admitted : token.state = .admitted) :
    token.outstanding = !token.settled := by
  have released := (sound.admitted admitted).1
  rcases hs : token.settled with _ | _
  · have : token.released = false := by
      by_contra h
      rw [Bool.not_eq_false] at h
      rw [released h] at hs
      cases hs
    simp [outstanding, admitted, hs, this]
  · simp [outstanding, hs]

theorem Sound.markAdmitted (sound : token.Sound) (queued : token.state = .queued) :
    token.markAdmitted.Sound where
  owned := sound.owned
  controlled := sound.controlled
  state := .inr (.inl rfl)
  queued := fun h => by cases h
  admitted := by
    obtain ⟨-, released, call⟩ := sound.queued queued
    refine fun _ => ⟨fun h => ?_, ?_⟩
    · exact absurd (released.symm.trans h) (by decide)
    · rcases call with idle | waiting
      · exact .inl (by simp [AdmissionToken.markAdmitted, idle])
      · exact .inr (by simp [AdmissionToken.markAdmitted, waiting])
  cancelled := fun h => by cases h

theorem Sound.outstanding_markAdmitted (sound : token.Sound) (queued : token.state = .queued) :
    token.markAdmitted.outstanding = true := by
  obtain ⟨settled, released, -⟩ := sound.queued queued
  exact outstanding_iff.mpr ⟨rfl, settled, released⟩

/-- A permit that was given back. -/
theorem Sound.settle (sound : token.Sound) (admitted : token.state = .admitted)
    (released : Bool) : { token with settled := true, released := released }.Sound where
  owned := sound.owned
  controlled := sound.controlled
  state := .inr (.inl admitted)
  queued := fun h => by cases admitted.symm.trans h
  admitted := fun _ => ⟨fun _ => rfl, (sound.admitted admitted).2⟩
  cancelled := fun h => by cases admitted.symm.trans h

/-- A settled token may be released again. -/
theorem Sound.mark (sound : token.Sound) (admitted : token.state = .admitted)
    (settled : token.settled = true) : { token with released := true }.Sound where
  owned := sound.owned
  controlled := sound.controlled
  state := .inr (.inl admitted)
  queued := fun h => by cases admitted.symm.trans h
  admitted := fun _ => ⟨fun _ => settled, (sound.admitted admitted).2⟩
  cancelled := fun h => by cases admitted.symm.trans h

end AdmissionToken

namespace ProviderAdmissionController

variable {config : ProviderAdmissionConfig} {now : ℚ} {c d : ProviderAdmissionController}
  {key other : String} {id : Nat}

/-- The tokens in the queue of a scope. -/
def waiting (c : ProviderAdmissionController) (key : String) : List Nat :=
  (c.scopes key).queue.map (·.token)

/-- The tokens of a scope that hold a permit. -/
def outstanding (c : ProviderAdmissionController) (key : String) : Finset Nat :=
  (Finset.range c.issued).filter fun id =>
    (c.tokens id).scopeKey = key ∧ (c.tokens id).outstanding = true

theorem mem_outstanding : id ∈ c.outstanding key ↔
    id < c.issued ∧ (c.tokens id).scopeKey = key ∧ (c.tokens id).outstanding = true := by
  simp [outstanding]

@[simp] theorem setScope_outstanding (scope : ScopeRuntime) :
    (c.setScope key scope).outstanding = c.outstanding := rfl

structure ScopeSound (config : ProviderAdmissionConfig) (c : ProviderAdmissionController)
    (key : String) : Prop where
  concurrent : (c.scopes key).concurrent = (c.outstanding key).card
  bounded : (c.scopes key).concurrent ≤ config.maxConcurrentPerScope
  capacity : (c.waiting key).length ≤ config.queueCapacityPerScope
  nodup : (c.waiting key).Nodup
  parked : ∀ id ∈ c.waiting key, id < c.issued ∧ (c.tokens id).scopeKey = key ∧
    (c.tokens id).Parked

structure Sound (config : ProviderAdmissionConfig) (c : ProviderAdmissionController) : Prop where
  tokens : ∀ id < c.issued, (c.tokens id).Sound ∧ (c.tokens id).scopeKey ∈ c.keys
  scopes : ∀ key, ScopeSound config c key
  absent : ∀ key ∉ c.keys, c.scopes key = {}

theorem sound_empty : Sound config empty where
  tokens := fun _ h => absurd h (Nat.not_lt_zero _)
  scopes := fun _ => ⟨rfl, Nat.zero_le _, Nat.zero_le _, .nil, by simp [waiting, empty]⟩
  absent := fun _ _ => rfl

/-- A token replaced by one of the same scope that holds a permit exactly when it did. -/
theorem Sound.setToken {token : AdmissionToken} (sound : Sound config c)
    (here : id < c.issued) (hsound : token.Sound)
    (hkey : token.scopeKey = (c.tokens id).scopeKey)
    (hout : token.outstanding = (c.tokens id).outstanding)
    (hparked : ∀ key, id ∈ c.waiting key → token.Parked) : Sound config (c.setToken id token) := by
  have scopeKey : ∀ i, ((c.setToken id token).tokens i).scopeKey = (c.tokens i).scopeKey := by
    intro i
    rcases eq_or_ne i id with rfl | hne
    · simpa using hkey
    · simp [Function.update_of_ne hne]
  have outs : ∀ i, ((c.setToken id token).tokens i).outstanding = (c.tokens i).outstanding := by
    intro i
    rcases eq_or_ne i id with rfl | hne
    · simpa using hout
    · simp [Function.update_of_ne hne]
  refine ⟨fun i hi => ⟨?_, ?_⟩, fun key => ?_, sound.absent⟩
  · rcases eq_or_ne i id with rfl | hne
    · simpa using hsound
    · simpa [Function.update_of_ne hne] using (sound.tokens i hi).1
  · rw [scopeKey]
    exact (sound.tokens i hi).2
  · have before := sound.scopes key
    refine ⟨?_, before.bounded, before.capacity, before.nodup, fun i hi => ?_⟩
    · have same : (c.setToken id token).outstanding key = c.outstanding key := by
        simp only [outstanding, scopeKey, outs, setToken_issued]
      rw [same]
      exact before.concurrent
    · obtain ⟨known, hscope, hp⟩ := before.parked i hi
      refine ⟨known, (scopeKey i).trans hscope, ?_⟩
      rcases eq_or_ne i id with rfl | hne
      · simpa using hparked key hi
      · simpa [Function.update_of_ne hne] using hp

/-- A scope that keeps its counter and loses entries of its queue. -/
theorem Sound.setScope (sound : Sound config c) (scope : ScopeRuntime) (known : key ∈ c.keys)
    (concurrent : scope.concurrent = (c.scopes key).concurrent)
    (sub : scope.queue.Sublist (c.scopes key).queue) : Sound config (c.setScope key scope) := by
  have subw : ((c.setScope key scope).waiting key).Sublist (c.waiting key) := by
    simpa [waiting] using sub.map (·.token)
  refine ⟨sound.tokens, fun k => ?_, fun k hk => ?_⟩
  · rcases eq_or_ne k key with rfl | hne
    · have before := sound.scopes k
      refine ⟨?_, ?_, ?_, before.nodup.sublist subw, fun i hi => before.parked i (subw.subset hi)⟩
      · simpa [concurrent] using before.concurrent
      · simpa [concurrent] using before.bounded
      · exact subw.length_le.trans before.capacity
    · have same : (c.setScope key scope).scopes k = c.scopes k := by
        simp [Function.update_of_ne hne]
      have before := sound.scopes k
      refine ⟨?_, ?_, ?_, ?_, ?_⟩
      · rw [same]
        exact before.concurrent
      · rw [same]
        exact before.bounded
      · simpa [waiting, same] using before.capacity
      · simpa [waiting, same] using before.nodup
      · simpa [waiting, same] using before.parked
  · have hne : k ≠ key := by
      rintro rfl
      exact hk known
    simpa [Function.update_of_ne hne] using sound.absent k hk

/-- A token that waits in no queue, replaced together with the counter of its scope. -/
theorem Sound.exchange {token : AdmissionToken} (sound : Sound config c) (scope : ScopeRuntime)
    (here : id < c.issued) (hkey : (c.tokens id).scopeKey = key) (apart : id ∉ c.waiting key)
    (tsound : token.Sound) (tkey : token.scopeKey = key)
    (queue : scope.queue = (c.scopes key).queue)
    (counter : scope.concurrent = ((c.setToken id token).outstanding key).card)
    (bounded : scope.concurrent ≤ config.maxConcurrentPerScope) :
    Sound config ((c.setToken id token).setScope key scope) := by
  set e := (c.setToken id token).setScope key scope with he
  have absent : ∀ k, id ∉ c.waiting k := fun k hk =>
    apart (by rw [← hkey, ((sound.scopes k).parked id hk).2.1]; exact hk)
  have tokens : ∀ i, i ≠ id → e.tokens i = c.tokens i := fun i hne => by
    simp [he, Function.update_of_ne hne]
  have self : e.tokens id = token := by simp [he]
  have scopes : ∀ k, k ≠ key → e.scopes k = c.scopes k := fun k hne => by
    simp [he, Function.update_of_ne hne]
  have waits : ∀ k, e.waiting k = c.waiting k := fun k => by
    rcases eq_or_ne k key with rfl | hne
    · simp [waiting, he, queue]
    · simp [waiting, scopes k hne]
  refine ⟨fun i hi => ?_, fun k => ?_, fun k hk => ?_⟩
  · rcases eq_or_ne i id with rfl | hne
    · rw [self, tkey]
      exact ⟨tsound, hkey ▸ (sound.tokens i here).2⟩
    · rw [tokens i hne]
      exact sound.tokens i hi
  · have before := sound.scopes k
    have parked : ∀ i ∈ e.waiting k, i < e.issued ∧ (e.tokens i).scopeKey = k ∧
        (e.tokens i).Parked := by
      intro i hi
      rw [waits] at hi
      have hne : i ≠ id := by
        rintro rfl
        exact absent k hi
      rw [tokens i hne]
      exact before.parked i hi
    rcases eq_or_ne k key with rfl | hne
    · have now : e.scopes k = scope := by simp [he]
      refine ⟨?_, ?_, (waits k).symm ▸ before.capacity, (waits k).symm ▸ before.nodup, parked⟩
      · rw [now, counter, he, setScope_outstanding]
      · rw [now]
        exact bounded
    · have same : e.outstanding k = c.outstanding k := by
        ext i
        rw [mem_outstanding, mem_outstanding]
        rcases eq_or_ne i id with rfl | hi
        · rw [self]
          exact ⟨fun h => absurd (h.2.1.symm.trans tkey) hne,
            fun h => absurd (h.2.1.symm.trans hkey) hne⟩
        · rw [tokens i hi]
          exact .rfl
      refine ⟨?_, ?_, (waits k).symm ▸ before.capacity, (waits k).symm ▸ before.nodup, parked⟩
      · rw [scopes k hne, same]
        exact before.concurrent
      · rw [scopes k hne]
        exact before.bounded
  · have hne : k ≠ key := by
      rintro rfl
      exact hk (hkey ▸ (sound.tokens id here).2)
    rw [scopes k hne]
    exact sound.absent k hk

/-- The history of grants plays no part in the accounting. -/
theorem Sound.record (sound : Sound config c) (grants : List Nat) :
    Sound config { c with grants := grants } where
  tokens := sound.tokens
  scopes := fun key =>
    let before := sound.scopes key
    ⟨before.concurrent, before.bounded, before.capacity, before.nodup, before.parked⟩
  absent := sound.absent

/-- A permit for a token that waits in no queue. -/
theorem Sound.grant (sound : Sound config c) (here : id < c.issued)
    (scope : (c.tokens id).scopeKey = key) (queued : (c.tokens id).state = .queued)
    (apart : id ∉ c.waiting key)
    (free : (c.scopes key).concurrent < config.maxConcurrentPerScope) :
    Sound config (c.grant key id) := by
  have tsound := (sound.tokens id here).1
  have new : id ∉ c.outstanding key := by
    rw [mem_outstanding, AdmissionToken.outstanding_of_state (by rw [queued]; decide)]
    simp
  have outs : (c.setToken id (c.tokens id).markAdmitted).outstanding key =
      insert id (c.outstanding key) := by
    ext i
    rw [Finset.mem_insert, mem_outstanding, mem_outstanding]
    rcases eq_or_ne i id with rfl | hne
    · simp only [setToken_tokens, Function.update_self, true_or, iff_true]
      exact ⟨here, scope, tsound.outstanding_markAdmitted queued⟩
    · simp only [setToken_tokens, Function.update_of_ne hne, hne, false_or]
      exact .rfl
  have exchanged := sound.exchange
    { c.scopes key with concurrent := (c.scopes key).concurrent + 1, inFlightToken := some id }
    here scope apart (tsound.markAdmitted queued) scope rfl
    (by rw [outs, Finset.card_insert_of_notMem new, (sound.scopes key).concurrent]) free
  exact exchanged.record (c.grants ++ [id])

/-- An outstanding permit goes back to its scope. -/
theorem Sound.giveBack {token : AdmissionToken} (sound : Sound config c)
    (mine : id ∈ c.outstanding key) (tsound : token.Sound)
    (tkey : token.scopeKey = key) (settled : token.outstanding = false)
    {inFlightToken : Option Nat} :
    Sound config ((c.setToken id token).setScope key { c.scopes key with
      inFlightToken := inFlightToken
      concurrent := (c.scopes key).concurrent - 1 }) := by
  obtain ⟨here, hkey, hout⟩ := mem_outstanding.mp mine
  have admitted := (AdmissionToken.outstanding_iff.mp hout).1
  have apart : id ∉ c.waiting key := fun hk => by
    rcases ((sound.scopes key).parked id hk).2.2 with h | h
    · cases admitted.symm.trans h.1
    · cases admitted.symm.trans h.1
  have outs : (c.setToken id token).outstanding key = (c.outstanding key).erase id := by
    ext i
    rw [Finset.mem_erase, mem_outstanding, mem_outstanding]
    rcases eq_or_ne i id with rfl | hi
    · simp [settled]
    · simp only [setToken_tokens, Function.update_of_ne hi, ne_eq, hi, not_false_eq_true,
        true_and]
      exact .rfl
  apply sound.exchange _ here hkey apart tsound tkey
  · rfl
  · rw [outs, Finset.card_erase_of_mem mine, (sound.scopes key).concurrent]
  · exact (Nat.sub_le _ _).trans (sound.scopes key).bounded

/-! ## What a pump does to a scope -/

/-- No scope that can grant has a cancelled entry in its queue. -/
def Quiet (config : ProviderAdmissionConfig) (now : ℚ) (c : ProviderAdmissionController) : Prop :=
  ∀ key ∈ c.keys, ∀ id ∈ c.waiting key, (c.tokens id).state = .cancelled →
    canGrant config now (c.scopes key) = false

instance : Decidable (Quiet config now c) :=
  inferInstanceAs (Decidable (∀ key ∈ c.keys, ∀ id ∈ c.waiting key, _))

/-- A scope is not cooling down. -/
def Cooled (now : ℚ) (scope : ScopeRuntime) : Prop :=
  ∀ cooldownUntil ∈ scope.cooldownUntil, cooldownUntil ≤ now

theorem canGrant_iff {scope : ScopeRuntime} : canGrant config now scope = true ↔
    scope.concurrent < config.maxConcurrentPerScope ∧ Cooled now scope := by
  rcases h : scope.cooldownUntil with _ | cooldownUntil
  · simp [canGrant, Cooled, h]
  · simp [canGrant, Cooled, h]

/-- A scope changes only by grants to entries that waited in its queue. -/
structure OnlyGranted (now : ℚ) (c d : ProviderAdmissionController) (key : String) : Prop where
  issued : c.issued ≤ d.issued
  cooldown : (d.scopes key).cooldownUntil = (c.scopes key).cooldownUntil
  queue : (d.scopes key).queue.Sublist (c.scopes key).queue
  concurrent : (d.scopes key).concurrent + (d.waiting key).length =
    (c.scopes key).concurrent + (c.waiting key).length
  inFlight : (d.scopes key).inFlightToken = (c.scopes key).inFlightToken ∨
    ∃ id ∈ c.waiting key, id ∉ d.waiting key ∧ (d.scopes key).inFlightToken = some id
  tokens : ∀ id < c.issued, (c.tokens id).scopeKey = key → d.tokens id =
    if id ∈ c.waiting key ∧ id ∉ d.waiting key then (c.tokens id).markAdmitted else c.tokens id
  granted : ∀ id < c.issued, (c.tokens id).scopeKey = key → id ∈ c.waiting key →
    id ∉ d.waiting key → (c.tokens id).state = .queued ∧ Cooled now (c.scopes key)

namespace OnlyGranted

variable {e : ProviderAdmissionController}

/-- A scope that nothing changes. -/
theorem of_same (issued : c.issued ≤ d.issued) (scope : d.scopes key = c.scopes key)
    (tokens : ∀ id < c.issued, (c.tokens id).scopeKey = key → d.tokens id = c.tokens id) :
    OnlyGranted now c d key := by
  have waits : d.waiting key = c.waiting key := by rw [waiting, scope, waiting]
  refine ⟨issued, by rw [scope], by rw [scope], by rw [scope, waits], .inl (by rw [scope]), ?_, ?_⟩
  · intro id here mine
    rw [tokens id here mine, waits, if_neg fun h => h.2 h.1]
  · intro id _ _ mem left
    exact absurd (waits ▸ mem) left

theorem refl : OnlyGranted now c c key := of_same (Nat.le_refl _) rfl fun _ _ _ => rfl

theorem waiting_subset (h : OnlyGranted now c d key) : d.waiting key ⊆ c.waiting key :=
  (h.queue.map QueueEntry.token).subset

theorem scopeKey (h : OnlyGranted now c d key) (here : id < c.issued)
    (mine : (c.tokens id).scopeKey = key) : (d.tokens id).scopeKey = key := by
  rw [h.tokens id here mine]
  split
  · exact mine
  · exact mine

/-- A token that still waits is the one that waited. -/
theorem tokens_of_waiting (h : OnlyGranted now c d key) (here : id < c.issued)
    (mine : (c.tokens id).scopeKey = key) (still : id ∈ d.waiting key) :
    d.tokens id = c.tokens id := by
  rw [h.tokens id here mine, if_neg fun left => left.2 still]

theorem trans (first : OnlyGranted now c d key) (second : OnlyGranted now d e key) :
    OnlyGranted now c e key where
  issued := first.issued.trans second.issued
  cooldown := second.cooldown.trans first.cooldown
  queue := second.queue.trans first.queue
  concurrent := second.concurrent.trans first.concurrent
  inFlight := by
    rcases second.inFlight with same | ⟨id, mem, left, here⟩
    · rw [same]
      rcases first.inFlight with same | ⟨id, mem, left, here⟩
      · exact .inl same
      · exact .inr ⟨id, mem, fun h => left (second.waiting_subset h), here⟩
    · exact .inr ⟨id, first.waiting_subset mem, left, here⟩
  tokens := by
    intro id here mine
    rw [second.tokens id (here.trans_le first.issued) (first.scopeKey here mine)]
    by_cases middle : id ∈ d.waiting key
    · have start := first.waiting_subset middle
      simp only [first.tokens_of_waiting here mine middle, middle, start, true_and]
    · have last : id ∉ e.waiting key := fun h => middle (second.waiting_subset h)
      simp only [middle, last, if_false, not_false_eq_true, and_true]
      rw [first.tokens id here mine]
      simp only [middle, not_false_eq_true, and_true]
  granted := by
    intro id here mine mem left
    by_cases middle : id ∈ d.waiting key
    · obtain ⟨queued, cooled⟩ :=
        second.granted id (here.trans_le first.issued) (first.scopeKey here mine) middle left
      rw [first.tokens_of_waiting here mine middle] at queued
      refine ⟨queued, fun cooldownUntil h => cooled cooldownUntil ?_⟩
      rw [first.cooldown]
      exact h
    · exact first.granted id here mine mem middle

end OnlyGranted

/-- What a chain of grants leaves of a sound controller. -/
structure Pumped (config : ProviderAdmissionConfig) (now : ℚ)
    (c d : ProviderAdmissionController) : Prop where
  sound : Sound config d
  quiet : Quiet config now d
  keys : d.keys = c.keys
  issued : d.issued = c.issued
  scopes : ∀ key, OnlyGranted now c d key
  history : ∀ id ∈ d.grants, id ∈ c.grants ∨
    (id < c.issued ∧ (d.tokens id).state = .admitted)

/-- An entry that a scope grants stands in its queue, alive. -/
theorem Sound.granted_entry (sound : Sound config c) (quiet : Quiet config now c)
    (known : key ∈ c.keys) {before after : List QueueEntry} {entry : QueueEntry}
    (free : canGrant config now (c.scopes key) = true)
    (queue : (c.scopes key).queue = before ++ entry :: after) :
    entry.token ∈ c.waiting key ∧ entry.token < c.issued ∧
      (c.tokens entry.token).scopeKey = key ∧ (c.tokens entry.token).state = .queued ∧
      entry.token ∉ (before ++ after).map (·.token) := by
  have mem : entry.token ∈ c.waiting key := by simp [waiting, queue]
  obtain ⟨here, mine, parked⟩ := (sound.scopes key).parked _ mem
  refine ⟨mem, here, mine, ?_, ?_⟩
  · rcases parked with h | h
    · exact h.1
    · have := quiet key known _ mem h.1
      rw [free] at this
      cases this
  · have nodup := (sound.scopes key).nodup
    rw [waiting, queue, List.map_append, List.map_cons, List.nodup_middle] at nodup
    rw [List.map_append]
    exact (List.nodup_cons.mp nodup).1

theorem Sound.grantsOne (sound : Sound config c) (quiet : Quiet config now c)
    (one : GrantsOne config now c d) : Pumped config now c d := by
  obtain ⟨key, known, before, entry, after, free, queue, -, rfl⟩ := one
  obtain ⟨mem, here, mine, queued, left⟩ := sound.granted_entry quiet known free queue
  set d := c.grantFrom key entry.token (before ++ after) with hd
  have self : d.tokens entry.token = (c.tokens entry.token).markAdmitted := by
    simp [hd]
  have tokens : ∀ i, i ≠ entry.token → d.tokens i = c.tokens i := fun i hne => by
    simp [hd, Function.update_of_ne hne]
  have scope : d.scopes key = { c.scopes key with
      queue := before ++ after
      concurrent := (c.scopes key).concurrent + 1
      inFlightToken := some entry.token } := by
    simp [hd]
  have scopes : ∀ k, k ≠ key → d.scopes k = c.scopes k := fun k hne => by
    simp [hd, Function.update_of_ne hne]
  have waits : d.waiting key = (before ++ after).map (·.token) := by rw [waiting, scope]
  have sub : (before ++ after).Sublist (c.scopes key).queue := by
    rw [queue]
    exact (List.Sublist.refl before).append (List.sublist_cons_self entry after)
  refine ⟨?_, ?_, rfl, rfl, ?_, ?_⟩
  · have dequeued := sound.setScope { c.scopes key with queue := before ++ after } known rfl sub
    refine dequeued.grant here mine queued ?_ ?_
    · simpa [waiting] using left
    · simpa using (canGrant_iff.mp free).1
  · intro k hmem id hid cancelled
    have hne : id ≠ entry.token := by
      rintro rfl
      rw [self] at cancelled
      cases cancelled
    rw [tokens id hne] at cancelled
    rcases eq_or_ne k key with rfl | hk
    · rw [waits] at hid
      have := quiet k known id ((sub.map (·.token)).subset hid) cancelled
      rw [free] at this
      cases this
    · rw [scopes k hk]
      rw [waiting, scopes k hk] at hid
      exact quiet k hmem id hid cancelled
  · intro k
    rcases eq_or_ne k key with rfl | hk
    · refine ⟨Nat.le_refl _, by rw [scope], by rw [scope]; exact sub, ?_, ?_, ?_, ?_⟩
      · rw [waits, scope, waiting, queue]
        simp only [List.length_map, List.length_append, List.length_cons]
        omega
      · exact .inr ⟨entry.token, mem, waits ▸ left, by rw [scope]⟩
      · intro id _ _
        rcases eq_or_ne id entry.token with rfl | hne
        · rw [self, if_pos ⟨mem, waits ▸ left⟩]
        · rw [tokens id hne, if_neg]
          rintro ⟨was, now⟩
          rw [waiting, queue] at was
          rw [waits] at now
          simp only [List.map_append, List.map_cons, List.mem_append, List.mem_cons] at was now
          tauto
      · intro id _ _ was now
        have hne : id = entry.token := by
          rw [waiting, queue] at was
          rw [waits] at now
          simp only [List.map_append, List.map_cons, List.mem_append, List.mem_cons] at was now
          tauto
        rw [hne]
        exact ⟨queued, (canGrant_iff.mp free).2⟩
    · refine OnlyGranted.of_same (Nat.le_refl _) (scopes k hk) fun id _ mine' => tokens id ?_
      rintro rfl
      exact hk (mine'.symm.trans mine)
  · intro id hid
    have grants : d.grants = c.grants ++ [entry.token] := rfl
    rw [grants, List.mem_append, List.mem_singleton] at hid
    refine hid.imp_right ?_
    rintro rfl
    exact ⟨here, by rw [self]; rfl⟩

/-- A pump changes the tokens that leave a queue and no other. -/
theorem Pumped.tokens (pumped : Pumped config now c d) (here : id < c.issued) :
    d.tokens id = c.tokens id ∨
      ((c.tokens id).state = .queued ∧ d.tokens id = (c.tokens id).markAdmitted ∧
        Cooled now (c.scopes (c.tokens id).scopeKey) ∧
        id ∈ c.waiting (c.tokens id).scopeKey) := by
  have only := pumped.scopes (c.tokens id).scopeKey
  have token := only.tokens id here rfl
  split at token
  · rename_i left
    obtain ⟨queued, cooled⟩ := only.granted id here rfl left.1 left.2
    exact .inr ⟨queued, token, cooled, left.1⟩
  · exact .inl token

theorem Pumped.admitted (pumped : Pumped config now c d) (here : id < c.issued)
    (admitted : (c.tokens id).state = .admitted) : (d.tokens id).state = .admitted := by
  rcases pumped.tokens here with same | ⟨queued, -⟩
  · rw [same]
    exact admitted
  · cases queued.symm.trans admitted

theorem Sound.grants (sound : Sound config c) (quiet : Quiet config now c)
    (chain : Grants config now c d) : Pumped config now c d := by
  induction chain with
  | refl => exact ⟨sound, quiet, rfl, rfl, fun _ => .refl, fun _ h => .inl h⟩
  | tail _ last ih =>
      have next := ih.sound.grantsOne ih.quiet last
      refine ⟨next.sound, next.quiet, next.keys.trans ih.keys, next.issued.trans ih.issued,
        fun key => (ih.scopes key).trans (next.scopes key), fun id hid => ?_⟩
      rcases next.history id hid with before | new
      · refine (ih.history id before).imp_right fun admitted => ⟨admitted.1, ?_⟩
        exact next.admitted (ih.issued.symm ▸ admitted.1) admitted.2
      · exact .inr ⟨ih.issued ▸ new.1, new.2⟩

theorem Sound.pump (sound : Sound config c) (quiet : Quiet config now c) :
    Pumped config now c (c.pump config now) :=
  sound.grants quiet (pump_grants c)

/-! ## What a pump leaves waiting -/

/-- A scope that cannot grant, or holds placeholders only. -/
def Drained (config : ProviderAdmissionConfig) (now : ℚ) (c : ProviderAdmissionController)
    (key : String) : Prop :=
  canGrant config now (c.scopes key) = false ∨
    ∀ entry ∈ (c.scopes key).queue, (c.tokens entry.token).unowned = true

theorem pumpScope_drained (fuel : Nat) (enough : (c.scopes key).queue.length ≤ fuel) :
    Drained config now (pumpScope config now key fuel c) key := by
  induction fuel generalizing c with
  | zero =>
      rw [Nat.le_zero, List.length_eq_zero_iff] at enough
      exact .inr (by simp [pumpScope, enough])
  | succ fuel ih =>
      rw [pumpScope]
      split
      · split
        · rename_i nothing
          exact .inr (dequeueCandidate_none nothing)
        · rename_i id rest chosen
          obtain ⟨before, entry, after, heq, rfl, -, -⟩ := dequeueCandidate_some chosen
          apply ih
          rw [heq] at enough
          simp only [List.length_append, List.length_cons] at enough
          simp only [grantFrom_scopes, Function.update_self, List.length_append]
          omega
      · rename_i idle
        rw [Bool.and_eq_true, not_and_or, Bool.not_eq_true, Bool.not_eq_true,
          Bool.not_eq_false', List.isEmpty_iff] at idle
        exact idle.imp id fun empty => by simp [empty]

/-- Pumping one scope leaves the others and every ownership as they were. -/
theorem pumpScope_apart (config : ProviderAdmissionConfig) (now : ℚ) (fuel : Nat)
    (c : ProviderAdmissionController) (hne : other ≠ key) :
    (pumpScope config now key fuel c).scopes other = c.scopes other ∧
      ∀ id, ((pumpScope config now key fuel c).tokens id).unowned = (c.tokens id).unowned := by
  induction fuel generalizing c with
  | zero => exact ⟨rfl, fun _ => rfl⟩
  | succ fuel ih =>
      rw [pumpScope]
      split
      · split
        · exact ⟨rfl, fun _ => rfl⟩
        · rename_i chosen rest _
          obtain ⟨scopes, unowned⟩ := ih (c.grantFrom key chosen rest)
          refine ⟨?_, fun id => (unowned id).trans ?_⟩
          · rw [scopes, grantFrom_scopes, Function.update_of_ne hne]
          · rcases eq_or_ne id chosen with rfl | hid
            · simp [AdmissionToken.markAdmitted]
            · simp [Function.update_of_ne hid]
      · exact ⟨rfl, fun _ => rfl⟩

theorem Drained.pumpScope (drained : Drained config now c key) (hne : key ≠ other) (fuel : Nat) :
    Drained config now (pumpScope config now other fuel c) key := by
  obtain ⟨scopes, unowned⟩ := pumpScope_apart config now fuel c hne
  rw [Drained] at drained ⊢
  rw [scopes]
  simpa only [unowned] using drained

/-- After a pump no scope holds both a free permit and an owned waiting entry. -/
theorem pump_drained (known : key ∈ c.keys) : Drained config now (c.pump config now) key := by
  have fold : ∀ keys : List String, ∀ d : ProviderAdmissionController,
      (key ∈ keys ∨ Drained config now d key) →
      Drained config now (keys.foldl
        (fun c key => pumpScope config now key (c.scopes key).queue.length c) d) key := by
    intro keys
    induction keys with
    | nil => exact fun d h => h.resolve_left List.not_mem_nil
    | cons first rest ih =>
        intro d h
        rw [List.foldl_cons]
        apply ih
        rcases eq_or_ne key first with rfl | hne
        · exact .inr (pumpScope_drained _ (Nat.le_refl _))
        · rcases h with mem | drained
          · exact .inl ((List.mem_cons.mp mem).resolve_left hne)
          · exact .inr (drained.pumpScope hne _)
  exact fold c.keys c (.inl known)

end ProviderAdmissionController

end AdCoder.ProviderAdmission
