import AdCoder.Foundation.Runs
import Mathlib.Data.List.Induction
import Mathlib.Data.List.Nodup

/-!
# The live retry coordinator

Retries of paused runs wait for a timer, then in a bounded queue for one of the
admissions of the host. Timers fire in any order, so their delays play no part,
and a timer that was cleared may still fire. A callback may schedule and cancel
before it first awaits, while the queue is being drained.
-/

namespace AdCoder.ControlPlane

open Foundation

/-! ## State -/

/-- Bounds that the constructor accepts. -/
structure LiveRetryCoordinatorOptions where
  maxConcurrentAdmissions : Nat
  maxQueuedAdmissions : Nat
  concurrent_pos : 0 < maxConcurrentAdmissions
  queued_pos : 0 < maxQueuedAdmissions

structure ReadyEntry where
  runId : String
  callback : Nat
  deriving DecidableEq

/-- The coordinator and its host. A call of `schedule` sets one timer and hands over one callback,
both under its number; `revoked` are the numbers that a later call of `cancel` or `schedule` for
the same run met before their callback had started. -/
structure LiveRetryCoordinator where
  pending : String → Option Nat
  ready : List ReadyEntry
  active : Nat
  timers : List String
  started : List Nat
  running : List Nat
  revoked : List Nat

/-- A call on the coordinator. -/
inductive RetryCall where
  | schedule (runId : String)
  | cancel (runId : String)

namespace LiveRetryCoordinator

def initial : LiveRetryCoordinator where
  pending := fun _ => none
  ready := []
  active := 0
  timers := []
  started := []
  running := []
  revoked := []

variable (options : LiveRetryCoordinatorOptions) (s : LiveRetryCoordinator)

/-! ## Operations -/

/-- The numbers of a run whose callbacks have not started. -/
def unstarted (runId : String) : List Nat :=
  (List.range s.timers.length).filter fun id => s.timers[id]? = some runId ∧ id ∉ s.started

def cancel (runId : String) : LiveRetryCoordinator :=
  { s with
    pending := Function.update s.pending runId none
    ready := s.ready.eraseP (·.runId == runId)
    revoked := s.revoked ++ s.unstarted runId }

def schedule (runId : String) : LiveRetryCoordinator :=
  let cancelled := s.cancel runId
  { cancelled with
    timers := s.timers ++ [runId]
    pending := Function.update cancelled.pending runId (some s.timers.length) }

def call : RetryCall → LiveRetryCoordinator
  | .schedule runId => s.schedule runId
  | .cancel runId => s.cancel runId

/-- A callback starts, and calls what it calls before it first awaits. -/
def start (calls : Nat → List RetryCall) (entry : ReadyEntry) : LiveRetryCoordinator :=
  (calls entry.callback).foldl call
    { s with
      active := s.active + 1
      started := s.started ++ [entry.callback]
      running := s.running ++ [entry.callback] }

/-- The loop of `drain`, for at most so many entries. -/
def drainLoop (calls : Nat → List RetryCall) : Nat → LiveRetryCoordinator → LiveRetryCoordinator
  | 0, s => s
  | fuel + 1, s =>
      if s.active < options.maxConcurrentAdmissions then
        match s.ready with
        | [] => s
        | entry :: rest => drainLoop calls fuel ({ s with ready := rest }.start calls entry)
      else s

/-- Every turn takes an entry from the queue, so its length bounds the loop. -/
def drain (calls : Nat → List RetryCall) : LiveRetryCoordinator :=
  drainLoop options calls s.ready.length s

/-- A timer fires; one that is not the pending timer of its run does nothing. -/
def fire (calls : Nat → List RetryCall) (timer : Nat) : LiveRetryCoordinator :=
  match s.timers[timer]? with
  | none => s
  | some runId =>
      if s.pending runId ≠ some timer then s
      else
        let taken := { s with pending := Function.update s.pending runId none }
        if s.ready.length ≥ options.maxQueuedAdmissions then taken
        else drain options { taken with ready := s.ready ++ [⟨runId, timer⟩] } calls

/-- A running callback settles. -/
def settle (calls : Nat → List RetryCall) (callback : Nat) : LiveRetryCoordinator :=
  if callback ∈ s.running then
    drain options
      { s with active := s.active - 1, running := s.running.erase callback } calls
  else s

inductive Move where
  | call (call : RetryCall)
  | fire (timer : Nat) (calls : Nat → List RetryCall)
  | settle (callback : Nat) (calls : Nat → List RetryCall)

def next : Move → LiveRetryCoordinator
  | .call call => s.call call
  | .fire timer calls => s.fire options calls timer
  | .settle callback calls => s.settle options calls callback

def run (moves : List Move) : LiveRetryCoordinator :=
  moves.foldl (fun s move => s.next options move) initial

/-! ## The invariant -/

/-- A callback that may still start. -/
def Waits (id : Nat) : Prop :=
  (∃ runId, s.pending runId = some id) ∨ ∃ entry ∈ s.ready, entry.callback = id

/-- Every number waits under its own run, at one place, and has neither started nor been revoked. -/
structure Consistent (s : LiveRetryCoordinator) : Prop where
  pending : ∀ runId id, s.pending runId = some id → s.timers[id]? = some runId
  ready : ∀ entry ∈ s.ready, s.timers[entry.callback]? = some entry.runId
  apart : ∀ entry ∈ s.ready, s.pending entry.runId = none
  distinct : (s.ready.map (·.runId)).Nodup
  fresh : ∀ id, s.Waits id → id ∉ s.started ∧ id ∉ s.revoked
  once : s.started.Nodup
  never : ∀ id ∈ s.revoked, id ∉ s.started
  known : ∀ id, id ∈ s.started ∨ id ∈ s.revoked → id < s.timers.length

/-- As many callbacks run as are counted, and the bound holds. -/
structure Bounded (s : LiveRetryCoordinator) : Prop where
  counted : s.running.length = s.active
  bounded : s.active ≤ options.maxConcurrentAdmissions

section Preserved

variable {options} {s} {runId : String} {id : Nat} {entry : ReadyEntry} {rest : List ReadyEntry}
  {calls : Nat → List RetryCall}

theorem mem_unstarted : id ∈ s.unstarted runId ↔ s.timers[id]? = some runId ∧ id ∉ s.started := by
  simp only [unstarted, List.mem_filter, List.mem_range, decide_eq_true_eq, and_iff_right_iff_imp]
  exact fun h => (List.getElem?_eq_some_iff.mp h.1).1

/-- Queued once, a run is out of the queue when its entry is removed. -/
theorem Consistent.removed (consistent : Consistent s) :
    ∀ entry ∈ s.ready.eraseP (·.runId == runId), entry ∈ s.ready ∧ entry.runId ≠ runId := by
  have distinct := consistent.distinct
  generalize s.ready = ready at distinct
  induction ready with
  | nil => simp
  | cons first rest ih =>
      rw [List.map_cons, List.nodup_cons] at distinct
      intro entry mem
      by_cases here : first.runId = runId
      · rw [List.eraseP_cons_of_pos (by simpa using here)] at mem
        refine ⟨List.mem_cons_of_mem _ mem, fun same => distinct.1 ?_⟩
        rw [here, ← same]
        exact List.mem_map_of_mem mem
      · rw [List.eraseP_cons_of_neg (by simpa using here)] at mem
        rcases List.mem_cons.mp mem with rfl | later
        · exact ⟨List.mem_cons_self, here⟩
        · exact ⟨List.mem_cons_of_mem _ (ih distinct.2 entry later).1,
            (ih distinct.2 entry later).2⟩

theorem Consistent.cancel (consistent : Consistent s) (runId : String) :
    Consistent (s.cancel runId) := by
  have left : ∀ other id, (s.cancel runId).pending other = some id →
      other ≠ runId ∧ s.pending other = some id := by
    intro other id h
    by_cases here : other = runId
    · subst here
      simp [LiveRetryCoordinator.cancel] at h
    · exact ⟨here, by simpa [LiveRetryCoordinator.cancel, here] using h⟩
  constructor
  · exact fun other id h => consistent.pending other id (left other id h).2
  · exact fun entry mem => consistent.ready entry (consistent.removed entry mem).1
  · intro entry mem
    obtain ⟨known, hne⟩ := consistent.removed entry mem
    simpa [LiveRetryCoordinator.cancel, hne] using consistent.apart entry known
  · exact consistent.distinct.sublist (List.eraseP_sublist.map _)
  · intro id waits
    -- What still waits belongs to another run.
    obtain ⟨other, hne, owner, before⟩ : ∃ other, other ≠ runId ∧ s.timers[id]? = some other ∧
        s.Waits id := by
      rcases waits with ⟨other, h⟩ | ⟨entry, mem, rfl⟩
      · obtain ⟨hne, pending⟩ := left other id h
        exact ⟨other, hne, consistent.pending other id pending, .inl ⟨other, pending⟩⟩
      · obtain ⟨known, hne⟩ := consistent.removed entry mem
        exact ⟨entry.runId, hne, consistent.ready entry known, .inr ⟨entry, known, rfl⟩⟩
    obtain ⟨unstarted, unrevoked⟩ := consistent.fresh id before
    refine ⟨unstarted, fun revoked => ?_⟩
    rcases List.mem_append.mp revoked with old | new
    · exact unrevoked old
    · exact hne (Option.some.inj (owner.symm.trans (mem_unstarted.mp new).1))
  · exact consistent.once
  · intro id revoked
    rcases List.mem_append.mp revoked with old | new
    · exact consistent.never id old
    · exact (mem_unstarted.mp new).2
  · intro id h
    rcases h with started | revoked
    · exact consistent.known id (.inl started)
    · rcases List.mem_append.mp revoked with old | new
      · exact consistent.known id (.inr old)
      · exact (List.getElem?_eq_some_iff.mp (mem_unstarted.mp new).1).1

theorem Consistent.schedule (consistent : Consistent s) (runId : String) :
    Consistent (s.schedule runId) := by
  have cancelled := consistent.cancel runId
  have longer : ∀ (id : Nat) (other : String), s.timers[id]? = some other →
      (s.timers ++ [runId])[id]? = some other := by
    intro id other h
    rw [List.getElem?_append_left (List.getElem?_eq_some_iff.mp h).1]
    exact h
  have place : ∀ other id, (s.schedule runId).pending other = some id →
      (other = runId ∧ id = s.timers.length) ∨ (s.cancel runId).pending other = some id := by
    intro other id h
    by_cases here : other = runId
    · subst here
      exact .inl ⟨rfl, by simpa [LiveRetryCoordinator.schedule] using h.symm⟩
    · exact .inr (by simpa [LiveRetryCoordinator.schedule, here] using h)
  constructor
  · intro other id h
    rcases place other id h with ⟨rfl, rfl⟩ | before
    · simp [LiveRetryCoordinator.schedule]
    · exact longer id other (cancelled.pending other id before)
  · exact fun entry mem => longer _ _ (cancelled.ready entry mem)
  · intro entry mem
    have hne := (consistent.removed entry mem).2
    simpa [LiveRetryCoordinator.schedule, hne] using cancelled.apart entry mem
  · exact cancelled.distinct
  · intro id waits
    have other : id = s.timers.length ∨ (s.cancel runId).Waits id := by
      rcases waits with ⟨other, h⟩ | queued
      · exact (place other id h).imp (·.2) fun before => .inl ⟨other, before⟩
      · exact .inr (.inr queued)
    rcases other with rfl | before
    · exact ⟨fun started => Nat.lt_irrefl _ (cancelled.known _ (.inl started)),
        fun revoked => Nat.lt_irrefl _ (cancelled.known _ (.inr revoked))⟩
    · exact cancelled.fresh id before
  · exact cancelled.once
  · exact cancelled.never
  · intro id h
    have : id < s.timers.length := cancelled.known id h
    simp only [LiveRetryCoordinator.schedule, List.length_append, List.length_singleton]
    omega

theorem Consistent.call (consistent : Consistent s) (call : RetryCall) :
    Consistent (s.call call) := by
  cases call with
  | schedule runId => exact consistent.schedule runId
  | cancel runId => exact consistent.cancel runId

theorem Consistent.foldl_call (consistent : Consistent s) (calls : List RetryCall) :
    Consistent (calls.foldl LiveRetryCoordinator.call s) := by
  induction calls generalizing s with
  | nil => exact consistent
  | cons call rest ih => exact ih (consistent.call call)

/-- The entry that leaves the queue is started for the first time. -/
theorem Consistent.start (consistent : Consistent s) (queue : s.ready = entry :: rest)
    (calls : Nat → List RetryCall) : Consistent ({ s with ready := rest }.start calls entry) := by
  have distinct := consistent.distinct
  rw [queue, List.map_cons, List.nodup_cons] at distinct
  have mem : entry ∈ s.ready := queue ▸ List.mem_cons_self
  have later : ∀ other ∈ rest, other ∈ s.ready := fun other h => queue ▸ List.mem_cons_of_mem _ h
  have owner := consistent.ready entry mem
  have fresh := consistent.fresh entry.callback (.inr ⟨entry, mem, rfl⟩)
  suffices begun : Consistent { s with
      ready := rest
      active := s.active + 1
      started := s.started ++ [entry.callback]
      running := s.running ++ [entry.callback] } from begun.foldl_call _
  refine ⟨consistent.pending, fun other h => consistent.ready other (later other h),
    fun other h => consistent.apart other (later other h), distinct.2, fun id waits => ?_, ?_,
    fun id revoked => ?_, fun id h => ?_⟩
  · -- No other place holds the number that starts.
    have hne : id ≠ entry.callback := by
      rintro rfl
      rcases waits with ⟨other, pending⟩ | ⟨other, h, same⟩
      · have := owner.symm.trans (consistent.pending other _ pending)
        rw [← Option.some.inj this, consistent.apart entry mem] at pending
        cases pending
      · have twice := consistent.ready other (later other h)
        rw [same, owner] at twice
        exact distinct.1 (Option.some.inj twice ▸ List.mem_map_of_mem h)
    have before : s.Waits id := waits.imp_right fun ⟨other, h, same⟩ => ⟨other, later other h, same⟩
    obtain ⟨unstarted, unrevoked⟩ := consistent.fresh id before
    exact ⟨by simp [unstarted, hne], unrevoked⟩
  · refine List.nodup_append.mpr ⟨consistent.once, List.nodup_singleton _, ?_⟩
    exact fun id old other new same => fresh.1 (List.mem_singleton.mp new ▸ same ▸ old)
  · intro started
    rcases List.mem_append.mp started with old | new
    · exact consistent.never id revoked old
    · exact fresh.2 (List.mem_singleton.mp new ▸ revoked)
  · rcases h with started | revoked
    · rcases List.mem_append.mp started with old | new
      · exact consistent.known id (.inl old)
      · rw [List.mem_singleton.mp new]
        exact (List.getElem?_eq_some_iff.mp owner).1
    · exact consistent.known id (.inr revoked)

/-! ## Bounds -/

/-- What a call leaves as it is. -/
theorem call_frame (call : RetryCall) : (s.call call).active = s.active ∧
    (s.call call).running = s.running ∧ (s.call call).ready.Sublist s.ready := by
  cases call with
  | schedule runId => exact ⟨rfl, rfl, List.eraseP_sublist⟩
  | cancel runId => exact ⟨rfl, rfl, List.eraseP_sublist⟩

theorem foldl_call_frame (calls : List RetryCall) :
    (calls.foldl LiveRetryCoordinator.call s).active = s.active ∧
      (calls.foldl LiveRetryCoordinator.call s).running = s.running ∧
      (calls.foldl LiveRetryCoordinator.call s).ready.Sublist s.ready := by
  induction calls generalizing s with
  | nil => exact ⟨rfl, rfl, .refl _⟩
  | cons call rest ih =>
      obtain ⟨active, running, ready⟩ := call_frame (s := s) call
      obtain ⟨active', running', ready'⟩ := ih (s := s.call call)
      exact ⟨active'.trans active, running'.trans running, ready'.trans ready⟩

theorem Bounded.start (bounded : Bounded options s)
    (free : s.active < options.maxConcurrentAdmissions) (calls : Nat → List RetryCall) :
    Bounded options ({ s with ready := rest }.start calls entry) := by
  obtain ⟨active, running, -⟩ := foldl_call_frame (s := { s with
    ready := rest
    active := s.active + 1
    started := s.started ++ [entry.callback]
    running := s.running ++ [entry.callback] }) (calls entry.callback)
  constructor
  · rw [LiveRetryCoordinator.start, active, running]
    simp [bounded.counted]
  · rw [LiveRetryCoordinator.start, active]
    exact free

/-- The invariant of the loop: what every turn keeps, the loop keeps. -/
theorem drainLoop_kept (consistent : Consistent s) (bounded : Bounded options s)
    (calls : Nat → List RetryCall) (fuel : Nat) :
    Consistent (drainLoop options calls fuel s) ∧
      Bounded options (drainLoop options calls fuel s) := by
  induction fuel generalizing s with
  | zero => exact ⟨consistent, bounded⟩
  | succ fuel ih =>
      rw [drainLoop]
      split
      · rename_i free
        split
        · exact ⟨consistent, bounded⟩
        · rename_i entry rest queue
          exact ih (consistent.start queue calls) (bounded.start free calls)
      · exact ⟨consistent, bounded⟩

/-! ## Steps -/

theorem Consistent.fire (consistent : Consistent s) (bounded : Bounded options s)
    (calls : Nat → List RetryCall) (timer : Nat) :
    Consistent (s.fire options calls timer) ∧ Bounded options (s.fire options calls timer) := by
  unfold LiveRetryCoordinator.fire
  rcases htimer : s.timers[timer]? with _ | runId
  · exact ⟨consistent, bounded⟩
  · by_cases current : s.pending runId = some timer
    · have gone : ∀ other id, Function.update s.pending runId none other = some id →
          other ≠ runId ∧ s.pending other = some id := by
        intro other id h
        by_cases here : other = runId
        · subst here
          simp at h
        · exact ⟨here, by simpa [here] using h⟩
      have unqueued : ∀ entry ∈ s.ready, entry.runId ≠ runId := by
        rintro entry mem rfl
        rw [consistent.apart entry mem] at current
        cases current
      have taken : Consistent { s with pending := Function.update s.pending runId none } := by
        refine ⟨fun other id h => consistent.pending other id (gone other id h).2, consistent.ready,
          fun entry mem => ?_, consistent.distinct, fun id waits => ?_, consistent.once,
          consistent.never, consistent.known⟩
        · simpa [unqueued entry mem] using consistent.apart entry mem
        · refine consistent.fresh id (waits.imp_left ?_)
          exact fun ⟨other, h⟩ => ⟨other, (gone other id h).2⟩
      have queued : Consistent { s with
          pending := Function.update s.pending runId none
          ready := s.ready ++ [⟨runId, timer⟩] } := by
        refine ⟨taken.pending, fun entry mem => ?_, fun entry mem => ?_, ?_, fun id waits => ?_,
          consistent.once, consistent.never, consistent.known⟩
        · rcases List.mem_append.mp mem with old | new
          · exact consistent.ready entry old
          · rw [List.mem_singleton.mp new]
            exact htimer
        · rcases List.mem_append.mp mem with old | new
          · exact taken.apart entry old
          · rw [List.mem_singleton.mp new]
            simp
        · rw [List.map_append, List.nodup_append]
          refine ⟨consistent.distinct, by simp, ?_⟩
          intro a ha b hb same
          obtain ⟨entry, mem, rfl⟩ := List.mem_map.mp ha
          exact unqueued entry mem (same.trans (by simpa using hb))
        · rcases waits with pending | ⟨entry, mem, rfl⟩
          · exact taken.fresh id (.inl pending)
          · rcases List.mem_append.mp mem with old | new
            · exact taken.fresh _ (.inr ⟨entry, old, rfl⟩)
            · rw [List.mem_singleton.mp new]
              exact consistent.fresh timer (.inl ⟨runId, current⟩)
      simp only [current, ne_eq, not_true_eq_false, if_false]
      split
      · exact ⟨taken, bounded.counted, bounded.bounded⟩
      · exact drainLoop_kept queued ⟨bounded.counted, bounded.bounded⟩ calls _
    · simp only [ne_eq, current, not_false_eq_true, if_true]
      exact ⟨consistent, bounded⟩

theorem Consistent.settle (consistent : Consistent s) (bounded : Bounded options s)
    (calls : Nat → List RetryCall) (callback : Nat) :
    Consistent (s.settle options calls callback) ∧
      Bounded options (s.settle options calls callback) := by
  unfold LiveRetryCoordinator.settle
  split
  · rename_i runs
    have settled : Consistent { s with
        active := s.active - 1
        running := s.running.erase callback } :=
      ⟨consistent.pending, consistent.ready, consistent.apart, consistent.distinct,
        consistent.fresh, consistent.once, consistent.never, consistent.known⟩
    refine drainLoop_kept settled ⟨?_, ?_⟩ calls _
    · exact (List.length_erase_of_mem runs).trans (congrArg (· - 1) bounded.counted)
    · exact Nat.le_trans (Nat.sub_le _ _) bounded.bounded
  · exact ⟨consistent, bounded⟩

theorem kept_run (options : LiveRetryCoordinatorOptions) (moves : List Move) :
    Consistent (run options moves) ∧ Bounded options (run options moves) := by
  refine (Run.foldl (fun s move => next options s move) initial moves).invariant
    (I := fun s => Consistent s ∧ Bounded options s) ?_ ?_
  · rintro s move _ ⟨consistent, bounded⟩ rfl
    cases move with
    | call call =>
        obtain ⟨active, running, -⟩ := call_frame (s := s) call
        refine ⟨consistent.call call, ?_, ?_⟩
        · exact running ▸ active ▸ bounded.counted
        · exact active ▸ bounded.bounded
    | fire timer calls => exact consistent.fire bounded calls timer
    | settle callback calls => exact consistent.settle bounded calls callback
  · refine ⟨⟨?_, ?_, ?_, ?_, ?_, ?_, ?_, ?_⟩, rfl, Nat.zero_le _⟩ <;> simp [initial, Waits]

/-! ## Revocations stand -/

theorem revoked_call (call : RetryCall) : s.revoked ⊆ (s.call call).revoked := by
  cases call with
  | schedule runId => exact List.subset_append_left _ _
  | cancel runId => exact List.subset_append_left _ _

theorem revoked_foldl_call (calls : List RetryCall) :
    s.revoked ⊆ (calls.foldl LiveRetryCoordinator.call s).revoked := by
  induction calls generalizing s with
  | nil => exact List.Subset.refl _
  | cons call rest ih => exact List.Subset.trans (revoked_call call) ih

theorem revoked_start (calls : Nat → List RetryCall) (entry : ReadyEntry) :
    s.revoked ⊆ (s.start calls entry).revoked :=
  revoked_foldl_call (s := { s with
    active := s.active + 1
    started := s.started ++ [entry.callback]
    running := s.running ++ [entry.callback] }) (calls entry.callback)

theorem revoked_drainLoop (calls : Nat → List RetryCall) (fuel : Nat) :
    s.revoked ⊆ (drainLoop options calls fuel s).revoked := by
  induction fuel generalizing s with
  | zero => exact List.Subset.refl _
  | succ fuel ih =>
      rw [drainLoop]
      split
      · split
        · exact List.Subset.refl _
        · rename_i entry rest _
          exact List.Subset.trans (revoked_start (s := { s with ready := rest }) calls entry) ih
      · exact List.Subset.refl _

theorem revoked_fire (calls : Nat → List RetryCall) (timer : Nat) :
    s.revoked ⊆ (s.fire options calls timer).revoked := by
  unfold LiveRetryCoordinator.fire
  split
  · exact List.Subset.refl _
  · rename_i runId _
    split
    · exact List.Subset.refl _
    · dsimp only
      split
      · exact List.Subset.refl _
      · exact revoked_drainLoop (s := { s with
          pending := Function.update s.pending runId none
          ready := s.ready ++ [⟨runId, timer⟩] }) calls _

theorem revoked_settle (calls : Nat → List RetryCall) (callback : Nat) :
    s.revoked ⊆ (s.settle options calls callback).revoked := by
  unfold LiveRetryCoordinator.settle
  split
  · exact revoked_drainLoop (s := { s with
      active := s.active - 1
      running := s.running.erase callback }) calls _
  · exact List.Subset.refl _

theorem revoked_next (move : Move) : s.revoked ⊆ (next options s move).revoked := by
  cases move with
  | call call => exact revoked_call call
  | fire timer calls => exact revoked_fire calls timer
  | settle callback calls => exact revoked_settle calls callback

theorem revoked_run (before after : List Move) :
    (run options before).revoked ⊆ (run options (before ++ after)).revoked := by
  induction after using List.reverseRecOn with
  | nil => simp
  | append_singleton after move ih =>
      have last : run options (before ++ (after ++ [move])) =
          next options (run options (before ++ after)) move := by
        simp [run]
      rw [last]
      exact List.Subset.trans ih (revoked_next move)

end Preserved

/-! ## Admissions -/

/-- The entries of a run in `pending` and `ready`. -/
def entriesOf (s : LiveRetryCoordinator) (runId : String) : Nat :=
  (s.pending runId).toList.length + s.ready.countP (·.runId == runId)

/-- What holds after any moves: the bound on running callbacks, one entry for each run, no start
after a revocation, and no second start. -/
structure Admitted (options : LiveRetryCoordinatorOptions) (moves : List Move) : Prop where
  bounded : (run options moves).running.length ≤ options.maxConcurrentAdmissions
  single : ∀ runId, (run options moves).entriesOf runId ≤ 1
  revoked : ∀ before after, moves = before ++ after →
    ∀ id ∈ (run options before).revoked, id ∉ (run options moves).started
  once : (run options moves).started.Nodup

theorem live_retries_admitted (options : LiveRetryCoordinatorOptions) (moves : List Move) :
    Admitted options moves := by
  obtain ⟨consistent, bounded⟩ := kept_run options moves
  refine ⟨bounded.counted ▸ bounded.bounded, fun runId => ?_, ?_, consistent.once⟩
  · have queued : (run options moves).ready.countP (·.runId == runId) ≤ 1 := by
      have := List.nodup_iff_count_le_one.mp consistent.distinct runId
      rwa [List.count_eq_countP, List.countP_map] at this
    unfold entriesOf
    rcases hpending : (run options moves).pending runId with _ | id
    · simpa using queued
    · have unqueued : (run options moves).ready.countP (·.runId == runId) = 0 := by
        refine List.countP_eq_zero.mpr fun entry mem same => ?_
        rw [← beq_iff_eq.mp same, consistent.apart entry mem] at hpending
        cases hpending
      rw [unqueued]
      exact Nat.le_refl 1
  · rintro before after rfl id revoked
    exact consistent.never id (revoked_run before after revoked)

end LiveRetryCoordinator

end AdCoder.ControlPlane
