import AdCoder.ProviderAdmission.AdmissionRuns

/-!
# Recovery of a controller from its snapshot

A snapshot keeps the counter of a scope, its queue without the tokens, and whether
its in-flight marker is set. A restored queue holds placeholders that are never
granted, and a set marker becomes one uncertain token.
-/

namespace AdCoder.ProviderAdmission

open Foundation

structure SavedEntry where
  priority : AdmissionPriorityClass
  enqueuedAt : ℚ
  deriving DecidableEq

structure ProviderAdmissionScopeState where
  concurrent : Nat
  queue : List SavedEntry
  cooldownUntil : Option ℚ
  /-- Whether the state carries `inFlight`. -/
  inFlight : Bool
  deriving DecidableEq

structure ProviderAdmissionSnapshot where
  version : Nat
  scopes : List (String × ProviderAdmissionScopeState)

def ScopeRuntime.save (scope : ScopeRuntime) : ProviderAdmissionScopeState where
  concurrent := scope.concurrent
  queue := scope.queue.map fun entry => ⟨entry.priority, entry.enqueuedAt⟩
  cooldownUntil := scope.cooldownUntil
  inFlight := scope.inFlightToken.isSome

namespace ProviderAdmissionController

variable {config : ProviderAdmissionConfig} {now : ℚ} {c d : ProviderAdmissionController}
  {key : String} {id : Nat}

def snapshot (c : ProviderAdmissionController) : ProviderAdmissionSnapshot where
  version := 1
  scopes := c.keys.map fun key => (key, (c.scopes key).save)

/-! ## Restoring -/

/-- A queue entry that occupies its place and is granted to nobody. -/
def placeholder (key : String) (priority : AdmissionPriorityClass) : AdmissionToken where
  scopeKey := key
  priority := priority
  unowned := true

/-- The permit that was in flight, with an outcome nobody knows. -/
def uncertainToken (key : String) : AdmissionToken where
  scopeKey := key
  state := .uncertain
  uncertain := true

def restoreQueue (key : String) :
    List SavedEntry → ProviderAdmissionController → ProviderAdmissionController × List QueueEntry
  | [], c => (c, [])
  | entry :: rest, c =>
      let (restored, queue) := restoreQueue key rest (c.construct (placeholder key entry.priority))
      (restored, ⟨entry.priority, entry.enqueuedAt, c.issued⟩ :: queue)

def restoreMarker (key : String) (inFlight : Bool) (c : ProviderAdmissionController) :
    ProviderAdmissionController × Option Nat :=
  if inFlight then (c.construct (uncertainToken key), some c.issued) else (c, none)

def restoreScope (c : ProviderAdmissionController)
    (saved : String × ProviderAdmissionScopeState) : ProviderAdmissionController :=
  let (key, state) := saved
  let (queued, queue) := restoreQueue key state.queue c
  let (marked, inFlightToken) := restoreMarker key state.inFlight queued
  (marked.ensureScope key).setScope key
    { concurrent := state.concurrent
      cooldownUntil := state.cooldownUntil
      queue := queue
      inFlightToken := inFlightToken }

/-- `restore` on a fresh controller. -/
def restore (snapshot : ProviderAdmissionSnapshot) : Except String ProviderAdmissionController :=
  if snapshot.version ≠ 1 then .error "unsupported provider admission snapshot version"
  else .ok (snapshot.scopes.foldl restoreScope empty)

def resolveUncertain (config : ProviderAdmissionConfig) (now : ℚ)
    (c : ProviderAdmissionController) (id : Nat) : ProviderAdmissionController :=
  if !(c.tokens id).uncertain || (c.tokens id).state != .uncertain then c
  else c.settleToken config now id

/-- Calls of `resolveUncertain`, each at its time. -/
def resolveAll (config : ProviderAdmissionConfig) (c : ProviderAdmissionController)
    (calls : List (ℚ × Nat)) : ProviderAdmissionController :=
  calls.foldl (fun c call => c.resolveUncertain config call.1 call.2) c

/-! ## What a restored controller holds -/

/-- The tokens of a controller that was only restored. -/
structure Restored (c : ProviderAdmissionController) : Prop where
  queues : ∀ key, ∀ entry ∈ (c.scopes key).queue,
    entry.token < c.issued ∧ (c.tokens entry.token).unowned = true
  markers : ∀ key, ∀ id ∈ (c.scopes key).inFlightToken,
    id < c.issued ∧ c.tokens id = uncertainToken key
  uncertain : ∀ id, (c.tokens id).uncertain = true →
    (c.tokens id).scopeKey ∈ c.keys ∧
      (c.scopes (c.tokens id).scopeKey).inFlightToken = some id
  fresh : ∀ id, c.issued ≤ id → c.tokens id = {}
  absent : ∀ key ∉ c.keys, c.scopes key = {}

/-- The scopes of a controller are those that were saved. -/
structure Matches (saved : List (String × ProviderAdmissionScopeState))
    (c : ProviderAdmissionController) : Prop where
  keys : c.keys = saved.map (·.1)
  scopes : ∀ scope ∈ saved, (c.scopes scope.1).save = scope.2

theorem restored_empty : Restored empty where
  queues := fun _ _ h => by cases h
  markers := fun _ _ h => by cases h
  uncertain := fun _ h => by cases h
  fresh := fun _ _ => rfl
  absent := fun _ _ => rfl

/-- New tokens, with the scopes as they were. -/
structure Extends (key : String) (c d : ProviderAdmissionController) : Prop where
  keys : d.keys = c.keys
  scopes : d.scopes = c.scopes
  issued : c.issued ≤ d.issued
  old : ∀ id < c.issued, d.tokens id = c.tokens id
  fresh : (∀ id, c.issued ≤ id → c.tokens id = {}) → ∀ id, d.issued ≤ id → d.tokens id = {}

theorem Extends.refl : Extends key c c :=
  ⟨rfl, rfl, Nat.le_refl _, fun _ _ => rfl, fun h => h⟩

theorem Extends.trans {e : ProviderAdmissionController} (first : Extends key c d)
    (second : Extends key d e) : Extends key c e where
  keys := second.keys.trans first.keys
  scopes := second.scopes.trans first.scopes
  issued := first.issued.trans second.issued
  old := fun id here => (second.old id (here.trans_le first.issued)).trans (first.old id here)
  fresh := fun h => second.fresh (first.fresh h)

theorem construct_extends (token : AdmissionToken) : Extends key c (c.construct token) where
  keys := rfl
  scopes := rfl
  issued := Nat.le_succ _
  old := fun id here => by simp [construct, Function.update_of_ne (Nat.ne_of_lt here)]
  fresh := fun h id there => by
    have hne : id ≠ c.issued := by
      rintro rfl
      exact absurd there (Nat.not_succ_le_self _)
    simpa [construct, Function.update_of_ne hne] using h id ((Nat.le_succ _).trans there)

theorem construct_token (token : AdmissionToken) : (c.construct token).tokens c.issued = token := by
  simp [construct]

/-- The placeholders of a restored queue. -/
structure QueueRestored (key : String) (entries : List SavedEntry)
    (c d : ProviderAdmissionController) (queue : List QueueEntry) : Prop where
  grown : Extends key c d
  saved : (queue.map fun entry => (⟨entry.priority, entry.enqueuedAt⟩ : SavedEntry)) = entries
  entries : ∀ entry ∈ queue, entry.token < d.issued ∧ (d.tokens entry.token).unowned = true
  certain : ∀ id, c.issued ≤ id → id < d.issued → (d.tokens id).uncertain = false

theorem restoreQueue_restored (key : String) (entries : List SavedEntry)
    (c : ProviderAdmissionController) :
    QueueRestored key entries c (restoreQueue key entries c).1 (restoreQueue key entries c).2 := by
  induction entries generalizing c with
  | nil =>
      exact ⟨.refl, rfl, fun _ h => (by cases h),
        fun _ low high => absurd high (Nat.not_lt.mpr low)⟩
  | cons entry rest ih =>
      have more := ih (c.construct (placeholder key entry.priority))
      have first : Extends key c (c.construct (placeholder key entry.priority)) :=
        construct_extends _
      have issued : (c.construct (placeholder key entry.priority)).issued = c.issued + 1 := rfl
      have token : (restoreQueue key rest (c.construct
          (placeholder key entry.priority))).1.tokens c.issued =
          placeholder key entry.priority := by
        rw [more.grown.old c.issued (by rw [issued]; exact Nat.lt_succ_self _), construct_token]
      have here : c.issued < (restoreQueue key rest (c.construct
          (placeholder key entry.priority))).1.issued := more.grown.issued
      refine ⟨first.trans more.grown, ?_, ?_, ?_⟩
      · simp [restoreQueue, more.saved]
      · intro other hother
        rcases List.mem_cons.mp hother with rfl | later
        · exact ⟨here, by rw [restoreQueue, token]; rfl⟩
        · exact more.entries other later
      · intro id low high
        rcases Nat.eq_or_lt_of_le low with rfl | after
        · rw [restoreQueue, token]
          rfl
        · exact more.certain id after high

/-- The uncertain token of a scope whose marker is set. -/
theorem restoreMarker_extends (key : String) (inFlight : Bool) (c : ProviderAdmissionController) :
    Extends key c (restoreMarker key inFlight c).1 ∧
      (restoreMarker key inFlight c).2.isSome = inFlight ∧
      (∀ id ∈ (restoreMarker key inFlight c).2, id < (restoreMarker key inFlight c).1.issued ∧
        (restoreMarker key inFlight c).1.tokens id = uncertainToken key) ∧
      ∀ id, c.issued ≤ id → id < (restoreMarker key inFlight c).1.issued →
        (restoreMarker key inFlight c).2 = some id := by
  cases inFlight with
  | false =>
      exact ⟨.refl, rfl, fun _ h => (by cases h),
        fun _ low high => absurd high (Nat.not_lt.mpr low)⟩
  | true =>
      refine ⟨construct_extends _, rfl, ?_, ?_⟩
      · intro id hid
        cases hid
        exact ⟨Nat.lt_succ_self _, construct_token _⟩
      · intro id low high
        obtain rfl : c.issued = id := Nat.le_antisymm low (Nat.le_of_lt_succ high)
        rfl

theorem Restored.restoreScope (restored : Restored c)
    {saved : List (String × ProviderAdmissionScopeState)} (same : Matches saved c)
    (state : ProviderAdmissionScopeState) (new : key ∉ c.keys) :
    Restored (c.restoreScope (key, state)) ∧
      Matches (saved ++ [(key, state)]) (c.restoreScope (key, state)) := by
  have queue := restoreQueue_restored key state.queue c
  set queued := (restoreQueue key state.queue c).1 with hqueued
  obtain ⟨extra, marked, marker, only⟩ := restoreMarker_extends key state.inFlight queued
  set d := (restoreMarker key state.inFlight queued).1 with hd
  set scope : ScopeRuntime :=
    { concurrent := state.concurrent
      cooldownUntil := state.cooldownUntil
      queue := (restoreQueue key state.queue c).2
      inFlightToken := (restoreMarker key state.inFlight queued).2 } with hscope
  have whole := queue.grown.trans extra
  have heq : c.restoreScope (key, state) = (d.ensureScope key).setScope key scope := rfl
  have absent : key ∉ d.keys := whole.keys ▸ new
  have keys : (c.restoreScope (key, state)).keys = c.keys ++ [key] := by
    rw [heq, setScope_keys, ← whole.keys, ensureScope, dif_neg absent]
  have scopes : (c.restoreScope (key, state)).scopes = Function.update c.scopes key scope := by
    rw [heq, setScope_scopes, ensureScope, dif_neg absent]
    simp [whole.scopes]
  have tokens : (c.restoreScope (key, state)).tokens = d.tokens := by
    rw [heq, setScope_tokens, ensureScope, dif_neg absent]
    rfl
  have issued : (c.restoreScope (key, state)).issued = d.issued := by
    rw [heq, setScope_issued, ensureScope, dif_neg absent]
    rfl
  have saveEq : scope.save = state := by
    rw [hscope, ScopeRuntime.save, queue.saved, marked]
  refine ⟨⟨?_, ?_, ?_, ?_, ?_⟩, ?_, ?_⟩
  · intro k entry hentry
    rw [scopes] at hentry
    rw [tokens, issued]
    rcases eq_or_ne k key with rfl | hne
    · rw [Function.update_self] at hentry
      obtain ⟨here, unowned⟩ := queue.entries entry hentry
      exact ⟨here.trans_le extra.issued, by rw [extra.old _ here]; exact unowned⟩
    · rw [Function.update_of_ne hne] at hentry
      obtain ⟨here, unowned⟩ := restored.queues k entry hentry
      exact ⟨here.trans_le whole.issued, by rw [whole.old _ here]; exact unowned⟩
  · intro k id hid
    rw [scopes] at hid
    rw [tokens, issued]
    rcases eq_or_ne k key with rfl | hne
    · rw [Function.update_self] at hid
      exact marker id hid
    · rw [Function.update_of_ne hne] at hid
      obtain ⟨here, token⟩ := restored.markers k id hid
      exact ⟨here.trans_le whole.issued, by rw [whole.old _ here]; exact token⟩
  · intro id uncertain
    rw [tokens] at uncertain ⊢
    rw [keys, scopes]
    rcases Nat.lt_or_ge id c.issued with old | new'
    · rw [whole.old id old] at uncertain ⊢
      obtain ⟨known, here⟩ := restored.uncertain id uncertain
      have hne : (c.tokens id).scopeKey ≠ key := fun h => new (h ▸ known)
      rw [Function.update_of_ne hne]
      exact ⟨List.mem_append_left _ known, here⟩
    · rcases Nat.lt_or_ge id queued.issued with placed | later
      · rw [extra.old id placed, queue.certain id new' placed] at uncertain
        cases uncertain
      · rcases Nat.lt_or_ge id d.issued with here | beyond
        · have mark := only id later here
          rw [(marker id mark).2]
          refine ⟨List.mem_append_right _ (List.mem_singleton_self _), ?_⟩
          rw [show (uncertainToken key).scopeKey = key from rfl, Function.update_self]
          exact mark
        · rw [whole.fresh restored.fresh id beyond] at uncertain
          cases uncertain
  · intro id beyond
    rw [issued] at beyond
    rw [tokens]
    exact whole.fresh restored.fresh id beyond
  · intro k hk
    rw [keys, List.mem_append, List.mem_singleton, not_or] at hk
    rw [scopes, Function.update_of_ne hk.2]
    exact restored.absent k hk.1
  · rw [keys, same.keys, List.map_append, List.map_singleton]
  · intro p hp
    rw [scopes]
    rcases List.mem_append.mp hp with old | last
    · have hne : p.1 ≠ key := by
        rintro rfl
        exact new (same.keys ▸ List.mem_map_of_mem old)
      rw [Function.update_of_ne hne]
      exact same.scopes p old
    · rw [List.mem_singleton.mp last, Function.update_self]
      exact saveEq

/-- Restoring scopes with distinct keys. -/
theorem Restored.fold (restored : Restored c)
    {saved : List (String × ProviderAdmissionScopeState)} (same : Matches saved c)
    (rest : List (String × ProviderAdmissionScopeState))
    (distinct : ((saved ++ rest).map (·.1)).Nodup) :
    Restored (rest.foldl ProviderAdmissionController.restoreScope c) ∧
      Matches (saved ++ rest) (rest.foldl ProviderAdmissionController.restoreScope c) := by
  induction rest generalizing c saved with
  | nil => simpa using ⟨restored, same⟩
  | cons scope rest ih =>
      obtain ⟨key, state⟩ := scope
      have new : key ∉ c.keys := by
        rw [same.keys]
        rw [List.map_append, List.map_cons, List.nodup_middle] at distinct
        exact fun h => (List.nodup_cons.mp distinct).1 (List.mem_append_left _ h)
      obtain ⟨first, next⟩ := restored.restoreScope same state new
      have split : saved ++ (key, state) :: rest = (saved ++ [(key, state)]) ++ rest := by simp
      rw [split] at distinct ⊢
      exact ih first next distinct

theorem restore_snapshot (c : ProviderAdmissionController) :
    ∃ r, restore c.snapshot = .ok r ∧ Restored r ∧ Matches c.snapshot.scopes r := by
  refine ⟨_, rfl, ?_⟩
  have matches' : Matches [] empty := ⟨rfl, fun _ h => by cases h⟩
  have distinct : (c.snapshot.scopes.map (·.1)).Nodup := by
    simpa [snapshot, Function.comp_def] using c.distinct
  exact restored_empty.fold matches' _ distinct

/-- A pump grants nothing to placeholders. -/
theorem pump_of_placeholders (unowned : ∀ key, ∀ entry ∈ (c.scopes key).queue,
    (c.tokens entry.token).unowned = true) : c.pump config now = c := by
  have scope : ∀ key fuel, pumpScope config now key fuel c = c := by
    intro key fuel
    cases fuel with
    | zero => rfl
    | succ fuel =>
        rw [pumpScope]
        split
        · split
          · rfl
          · rename_i id rest chosen
            obtain ⟨before, entry, after, heq, -, rfl, owned⟩ := dequeueCandidate_some chosen
            have mem : entry ∈ (c.scopes key).queue := by rw [heq]; simp
            rw [unowned key entry mem] at owned
            cases owned
        · rfl
  have fold : ∀ keys : List String,
      keys.foldl (fun c key => pumpScope config now key (c.scopes key).queue.length c) c = c := by
    intro keys
    induction keys with
    | nil => rfl
    | cons key rest ih => rw [List.foldl_cons, scope, ih]
  exact fold c.keys

/-- Some uncertain tokens of a restored controller `r` are resolved. -/
structure Resolving (r s : ProviderAdmissionController) : Prop where
  keys : s.keys = r.keys
  queues : ∀ key, (s.scopes key).queue = (r.scopes key).queue
  tokens : ∀ id, s.tokens id = { r.tokens id with settled := (s.tokens id).settled }
  counters : ∀ key, (s.scopes key).concurrent = (r.scopes key).concurrent -
    if (r.scopes key).inFlightToken.any (fun id => (s.tokens id).settled) then 1 else 0

theorem Restored.resolving {r : ProviderAdmissionController} (restored : Restored r) :
    Resolving r r where
  keys := rfl
  queues := fun _ => rfl
  tokens := fun _ => rfl
  counters := by
    intro key
    rcases marker : (r.scopes key).inFlightToken with _ | id
    · simp
    · have token := (restored.markers key id marker).2
      simp [token, uncertainToken]

/-- A call settles its token when that is uncertain, and no other. -/
theorem Restored.resolveUncertain {r s : ProviderAdmissionController} (restored : Restored r)
    (config : ProviderAdmissionConfig) (resolving : Resolving r s) (now : ℚ) (id : Nat) :
    Resolving r (s.resolveUncertain config now id) ∧
      (∀ other, (s.tokens other).settled = true →
        ((s.resolveUncertain config now id).tokens other).settled = true) ∧
      ((r.tokens id).uncertain = true →
        ((s.resolveUncertain config now id).tokens id).settled = true) := by
  by_cases uncertain : (r.tokens id).uncertain = true
  swap
  · have idle : s.resolveUncertain config now id = s := by
      have same : (s.tokens id).uncertain = (r.tokens id).uncertain := by
        rw [resolving.tokens id]
      simp [ProviderAdmissionController.resolveUncertain, same, uncertain]
    rw [idle]
    exact ⟨resolving, fun _ h => h, fun h => absurd h uncertain⟩
  obtain ⟨known, marker⟩ := restored.uncertain id uncertain
  set key := (r.tokens id).scopeKey with hkey
  have token : r.tokens id = uncertainToken key := (restored.markers key id marker).2
  have now' : s.tokens id = { uncertainToken key with settled := (s.tokens id).settled } :=
    token ▸ resolving.tokens id
  rcases settled : (s.tokens id).settled with _ | _
  swap
  · have idle : s.resolveUncertain config now id = s := by
      simp [ProviderAdmissionController.resolveUncertain, settleToken, settled]
    rw [idle]
    exact ⟨resolving, fun _ h => h, fun _ => settled⟩
  rw [settled] at now'
  have unowned : ∀ k, ∀ entry ∈ ((s.giveBack id).scopes k).queue,
      ((s.giveBack id).tokens entry.token).unowned = true := by
    intro k entry hentry
    have queue : ((s.giveBack id).scopes k).queue = (s.scopes k).queue := by
      rcases eq_or_ne k (s.tokens id).scopeKey with rfl | hne
      · simp [giveBack]
      · simp [giveBack, Function.update_of_ne hne]
    have same : ((s.giveBack id).tokens entry.token).unowned = (s.tokens entry.token).unowned := by
      rcases eq_or_ne entry.token id with heq | hne
      · simp [giveBack, heq]
      · simp [giveBack, Function.update_of_ne hne]
    rw [queue, resolving.queues] at hentry
    rw [same, resolving.tokens entry.token]
    exact (restored.queues k entry hentry).2
  have step : s.resolveUncertain config now id = s.giveBack id := by
    have known' : (s.tokens id).scopeKey ∈ s.keys := by
      rw [now', resolving.keys]
      exact known
    have flags : (s.tokens id).uncertain = true ∧ (s.tokens id).state = .uncertain ∧
        (s.tokens id).released = false := by
      rw [now']
      exact ⟨rfl, rfl, rfl⟩
    rw [ProviderAdmissionController.resolveUncertain, if_neg (by simp [flags]), settleToken,
      if_neg (by simp [flags, settled]), releaseToken, if_neg (by simp [settled]), if_pos known']
    exact pump_of_placeholders unowned
  have scopeKey : (s.tokens id).scopeKey = key := by rw [now']; rfl
  have done : ((s.giveBack id).tokens id).settled = true := by simp [giveBack]
  have others : ∀ other, other ≠ id → (s.giveBack id).tokens other = s.tokens other :=
    fun other hne => by simp [giveBack, Function.update_of_ne hne]
  rw [step]
  refine ⟨⟨resolving.keys, fun k => ?_, fun other => ?_, fun k => ?_⟩, fun other h => ?_,
    fun _ => done⟩
  · rw [← resolving.queues k]
    rcases eq_or_ne k (s.tokens id).scopeKey with rfl | hne
    · simp [giveBack]
    · simp [giveBack, Function.update_of_ne hne]
  · rcases eq_or_ne other id with rfl | hne
    · rw [done, token]
      simp [giveBack, now']
    · rw [others other hne]
      exact resolving.tokens other
  · rcases eq_or_ne k key with rfl | hne
    · have counter : ((s.giveBack id).scopes key).concurrent = (s.scopes key).concurrent - 1 := by
        simp [giveBack, scopeKey]
      rw [counter, resolving.counters key, marker]
      simp [done, settled]
    · have same : (s.giveBack id).scopes k = s.scopes k := by
        simp [giveBack, scopeKey, Function.update_of_ne hne]
      rw [same, resolving.counters k]
      rcases mark : (r.scopes k).inFlightToken with _ | other
      · rfl
      · have apart : other ≠ id := by
          rintro rfl
          have here := (restored.markers k other mark).2
          rw [token] at here
          exact hne (congrArg AdmissionToken.scopeKey here).symm
        simp [others other apart]
  · rcases eq_or_ne other id with rfl | hne
    · exact done
    · rw [others other hne]
      exact h

theorem Restored.resolveAll {r s : ProviderAdmissionController} (restored : Restored r)
    (config : ProviderAdmissionConfig) (resolving : Resolving r s) (calls : List (ℚ × Nat)) :
    Resolving r (s.resolveAll config calls) ∧
      ∀ id, (r.tokens id).uncertain = true →
        ((s.tokens id).settled = true ∨ ∃ call ∈ calls, call.2 = id) →
        ((s.resolveAll config calls).tokens id).settled = true := by
  induction calls generalizing s with
  | nil => exact ⟨resolving, fun id _ h => h.resolve_right (by simp)⟩
  | cons call rest ih =>
      obtain ⟨next, kept, settles⟩ :=
        restored.resolveUncertain config resolving call.1 call.2
      obtain ⟨last, all⟩ := ih next
      refine ⟨last, fun id uncertain h => all id uncertain ?_⟩
      rcases h with settled | ⟨other, mem, rfl⟩
      · exact .inl (kept id settled)
      · rcases List.mem_cons.mp mem with rfl | later
        · exact .inl (settles uncertain)
        · exact .inr ⟨other, later, rfl⟩

/-- Resolving every uncertain token of a restored controller frees all of its capacity
exactly when no scope counts more permits than its marker stands for. -/
theorem restored_capacity (config : ProviderAdmissionConfig) (c r : ProviderAdmissionController)
    (calls : List (ℚ × Nat)) (loaded : restore c.snapshot = .ok r)
    (every : ∀ id < r.issued, (r.tokens id).uncertain = true → ∃ call ∈ calls, call.2 = id) :
    (∀ key ∈ r.keys, ((r.resolveAll config calls).scopes key).concurrent = 0) ↔
      ∀ key ∈ c.keys, (c.scopes key).concurrent ≤
        if (c.scopes key).inFlightToken.isSome then 1 else 0 := by
  obtain ⟨r', hr, restored, same⟩ := restore_snapshot c
  obtain rfl : r' = r := Except.ok.inj (hr.symm.trans loaded)
  obtain ⟨resolved, settled⟩ :=
    restored.resolveAll config restored.resolving calls
  have keys : r'.keys = c.keys := by
    rw [same.keys]
    simp [snapshot, Function.comp_def]
  have final : ∀ key ∈ c.keys, ((r'.resolveAll config calls).scopes key).concurrent =
      (c.scopes key).concurrent - if (c.scopes key).inFlightToken.isSome then 1 else 0 := by
    intro key mem
    have scope := same.scopes (key, (c.scopes key).save) (List.mem_map.mpr ⟨key, mem, rfl⟩)
    have counter : (r'.scopes key).concurrent = (c.scopes key).concurrent :=
      congrArg ProviderAdmissionScopeState.concurrent scope
    have marked : (r'.scopes key).inFlightToken.isSome = (c.scopes key).inFlightToken.isSome :=
      congrArg ProviderAdmissionScopeState.inFlight scope
    rw [resolved.counters key, counter, ← marked]
    rcases marker : (r'.scopes key).inFlightToken with _ | id
    · rfl
    · obtain ⟨here, token⟩ := restored.markers key id marker
      have uncertain : (r'.tokens id).uncertain = true := by rw [token]; rfl
      simp [settled id uncertain (.inr (every id here uncertain))]
  rw [keys]
  refine forall₂_congr fun key mem => ?_
  rw [final key mem, Nat.sub_eq_zero_iff_le]

/-- Two calls at once, on a controller with two permits for each scope. -/
def twoPermits : ProviderAdmissionConfig :=
  { defaultProviderAdmissionConfig with
    maxConcurrentPerScope := 2
    concurrent_pos := by decide }

def oneCall : List (ℚ × AdmissionEvent) := [(0, .reserve "scope" "label" .interactive)]

def twoCalls : List (ℚ × AdmissionEvent) := oneCall ++ [(1, .reserve "scope" "label" .interactive)]

/-- What `restore` makes of the snapshot after some events. -/
def restoredAfter (config : ProviderAdmissionConfig) (labels : List (ℚ × AdmissionEvent)) :
    ProviderAdmissionController :=
  (labels.foldl (apply config) empty).snapshot.scopes.foldl restoreScope empty

theorem restored_capacity_oneCall :
    (restoredAfter twoPermits oneCall).keys = ["scope"] ∧
      ∀ key ∈ (restoredAfter twoPermits oneCall).keys,
        (((restoredAfter twoPermits oneCall).resolveAll twoPermits [(2, 0)]).scopes
          key).concurrent = 0 :=
  ⟨by decide +kernel,
    (restored_capacity twoPermits (oneCall.foldl (apply twoPermits) empty)
      (restoredAfter twoPermits oneCall) [(2, 0)] rfl (by decide +kernel)).mpr
      (by decide +kernel)⟩

/-- The marker stands for one of the two permits, so the other is lost. -/
theorem restored_capacity_refuted :
    ¬ ∀ labels c r calls, Run (Guarded (Steps twoPermits) ByCaller) .empty labels c →
      restore c.snapshot = .ok r →
      (∀ id < r.issued, (r.tokens id).uncertain = true → ∃ call ∈ calls, call.2 = id) →
      ∀ key ∈ r.keys, ((r.resolveAll twoPermits calls).scopes key).concurrent = 0 := by
  intro recovered
  have run := Run.guarded_foldl (fun _ _ => of_decide_eq_true)
    (by decide +kernel : Run.checked (apply twoPermits)
      (fun c made => decide (c.ByCaller made)) empty twoCalls = true)
  have freed := recovered _ _ (restoredAfter twoPermits twoCalls) [(2, 0)] run rfl
    (by decide +kernel) "scope" (by decide +kernel)
  have lost : (((restoredAfter twoPermits twoCalls).resolveAll twoPermits [(2, 0)]).scopes
      "scope").concurrent = 1 := by decide +kernel
  cases lost.symm.trans freed

end ProviderAdmissionController

end AdCoder.ProviderAdmission
