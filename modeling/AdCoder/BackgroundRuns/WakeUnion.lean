import AdCoder.BackgroundRuns.Wakes
import AdCoder.Foundation.KeyedJoins
import AdCoder.Foundation.Lists
import Mathlib.Data.Fintype.Order
import Mathlib.Order.Lattice.Nat

/-!
# The union of wake projections is a join

A window observes when its last event came, how many events it folded, whether
and when it was handled. `mergeWake` joins what both projections observed of
each window, so stale copies of one projection unite in any order.
-/

namespace AdCoder.BackgroundRuns

open Foundation

/-! ## What a window observes -/

/-- `lastAt`, `count`, `handled` and `handledAt`, each of which only grows. -/
abbrev Observation : Type := ℕ × ℕ × Bool × WithBot ℕ

def handledTime (handledAt : Option Nat) : WithBot ℕ :=
  handledAt.elim ⊥ WithBot.some

def WakeEntry.observation (w : WakeEntry) : Observation :=
  (w.lastAt, w.count, w.handled, handledTime w.handledAt)

/-- A window is its key and its observation. -/
theorem WakeEntry.observation_injective :
    Function.Injective fun w : WakeEntry => (w.key, w.observation) := by
  rintro ⟨kind, firstAt, lastAt, count, handled, handledAt⟩
    ⟨kind', firstAt', lastAt', count', handled', handledAt'⟩ same
  simp only [key, observation, Prod.mk.injEq] at same
  obtain ⟨⟨rfl, rfl⟩, rfl, rfl, rfl, times⟩ := same
  have : handledAt = handledAt' := by
    cases handledAt <;> cases handledAt' <;> simp_all [handledTime]
  rw [this]

theorem handledTime_laterAt (a b : Option Nat) :
    handledTime (laterAt a b) = handledTime a ⊔ handledTime b := by
  cases a <;> cases b <;> simp [laterAt, handledTime]

theorem joinWindow_nil (first : WakeEntry) : joinWindow first [] = first := by
  simp [joinWindow]

/-- One more observation of the window. -/
theorem joinWindow_cons (first next : WakeEntry) (rest : List WakeEntry) :
    joinWindow first (next :: rest) = joinWindow (joinWindow first [next]) rest := by
  simp [joinWindow, Bool.or_assoc]

theorem observation_joinWindow_single (first next : WakeEntry) :
    (joinWindow first [next]).observation = first.observation ⊔ next.observation := by
  simp only [WakeEntry.observation, joinWindow, List.foldl_cons, List.foldl_nil, List.any_cons,
    List.any_nil, Bool.or_false, handledTime_laterAt]
  rfl

variable {a b c all : List WakeEntry} {w : WakeEntry} {key : WakeKind × Nat}

/-- Observations of one window join to what they say together. -/
theorem joinWindow_spec (first : WakeEntry) (others : List WakeEntry)
    (same : ∀ v ∈ others, v.key = first.key) :
    (joinWindow first others).key = first.key ∧
      ((joinWindow first others).observation : WithBot Observation) =
        (first.observation : WithBot Observation) ⊔
          observed WakeEntry.key WakeEntry.observation others first.key := by
  induction others generalizing first with
  | nil => rw [joinWindow_nil, observed_nil, sup_bot_eq]; exact ⟨rfl, rfl⟩
  | cons next rest ih =>
      have hnext : next.key = first.key := same next List.mem_cons_self
      have hfirst : (joinWindow first [next]).key = first.key := by
        have least : next.firstAt = first.firstAt := congrArg Prod.snd hnext
        simp [WakeEntry.key, joinWindow, least]
      obtain ⟨hkey, hvalue⟩ := ih (joinWindow first [next]) fun v mem => by
        rw [hfirst]
        exact same v (List.mem_cons_of_mem next mem)
      rw [joinWindow_cons, hkey, hvalue, hfirst, observation_joinWindow_single, observed_cons,
        if_pos hnext, WithBot.coe_sup, sup_assoc]
      exact ⟨rfl, rfl⟩

theorem joinAt_spec (h : joinAt all key = some w) :
    w.key = key ∧ observed WakeEntry.key WakeEntry.observation all key = w.observation := by
  unfold joinAt at h
  split at h
  · cases h
  · rename_i first others found
    cases h
    have keys (v : WakeEntry) (mem : v ∈ first :: others) : v.key = key := by
      rw [← found] at mem
      simpa using (List.mem_filter.mp mem).2
    have hfirst : first.key = key := keys first List.mem_cons_self
    have said : observed WakeEntry.key WakeEntry.observation all key =
        observed WakeEntry.key WakeEntry.observation (first :: others) key := by
      have key_eq : (fun w : WakeEntry => decide (w.key = key)) = fun w => w.key == key := by
        funext w
        exact (beq_eq_decide ..).symm
      rw [← found]
      simp only [observed, key_eq, List.filter_filter, Bool.and_self]
    obtain ⟨hkey, hvalue⟩ := joinWindow_spec first others fun v mem =>
      (keys v (List.mem_cons_of_mem first mem)).trans hfirst.symm
    rw [said, observed_cons, if_pos hfirst, hkey, hvalue, hfirst]
    exact ⟨rfl, rfl⟩

theorem joinAt_isSome (h : key ∈ all.map WakeEntry.key) : ∃ w, joinAt all key = some w := by
  obtain ⟨v, mem, rfl⟩ := List.mem_map.mp h
  unfold joinAt
  split
  · rename_i empty
    have : v ∈ all.filter fun u => u.key == v.key := by simpa using mem
    rw [empty] at this
    cases this
  · exact ⟨_, rfl⟩

/-! ## The union of the windows -/

theorem keys_filterMap_joinAt (keys : List (WakeKind × Nat))
    (known : ∀ key ∈ keys, key ∈ all.map WakeEntry.key) :
    (keys.filterMap (joinAt all)).map WakeEntry.key = keys := by
  induction keys with
  | nil => rfl
  | cons key rest ih =>
      obtain ⟨w, joined⟩ := joinAt_isSome (known key List.mem_cons_self)
      rw [List.filterMap_cons, joined, List.map_cons, (joinAt_spec joined).1,
        ih fun k mem => known k (List.mem_cons_of_mem key mem)]

theorem mergeWindows_unites :
    Unites WakeEntry.key WakeEntry.observation (a ++ b) (mergeWindows a b) where
  unique := by
    rw [mergeWindows, keys_filterMap_joinAt _ fun key mem => List.mem_eraseDups.mp mem]
    exact nodup_eraseDups _
  found := by
    intro key mem
    rw [mergeWindows, keys_filterMap_joinAt _ fun key mem => List.mem_eraseDups.mp mem]
    exact List.mem_eraseDups.mpr mem
  joined := by
    intro w mem
    obtain ⟨key, -, joined⟩ := List.mem_filterMap.mp mem
    obtain ⟨hkey, hvalue⟩ := joinAt_spec joined
    rw [hkey, hvalue]

/-! ## The union of the projections -/

/-- The windows of a projection, none if it is missing. -/
abbrev projectedWindows (wake : Option (List WakeEntry)) : List WakeEntry := wake.getD []

/-- No window comes twice. -/
def UniqueWindows (wake : Option (List WakeEntry)) : Prop :=
  ((projectedWindows wake).map WakeEntry.key).Nodup

instance (wake : Option (List WakeEntry)) : Decidable (UniqueWindows wake) :=
  inferInstanceAs (Decidable (List.Nodup _))

/-- The same projection, up to the order of its windows. -/
def SameWindows : Option (List WakeEntry) → Option (List WakeEntry) → Prop :=
  Option.Rel List.Perm

/-- The laws of the union of wake projections. -/
structure WakeJoin (a b c : Option (List WakeEntry)) : Prop where
  comm : SameWindows (mergeWake a b) (mergeWake b a)
  assoc : SameWindows (mergeWake (mergeWake a b) c) (mergeWake a (mergeWake b c))
  idem : SameWindows (mergeWake a a) a
  keys : ∀ v ∈ projectedWindows a ++ projectedWindows b,
    ((projectedWindows (mergeWake a b)).map WakeEntry.key).count v.key = 1
  grows : ∀ v ∈ projectedWindows a ++ projectedWindows b, ∀ w ∈ projectedWindows (mergeWake a b),
    w.key = v.key → v.lastAt ≤ w.lastAt ∧ v.count ≤ w.count ∧ (v.handled = true → w.handled = true)

theorem projectedWindows_mergeWake (a b : Option (List WakeEntry)) :
    projectedWindows (mergeWake a b) = mergeWindows (projectedWindows a) (projectedWindows b) := by
  cases a <;> cases b <;> rfl

@[simp] theorem mergeWake_eq_none {a b : Option (List WakeEntry)} :
    mergeWake a b = none ↔ a = none ∧ b = none := by
  cases a <;> cases b <;> simp [mergeWake]

/-- Projections of which both or neither is missing are compared by their windows. -/
theorem sameWindows_of_perm {a b : Option (List WakeEntry)} (missing : a = none ↔ b = none)
    (perm : (projectedWindows a).Perm (projectedWindows b)) : SameWindows a b := by
  cases a with
  | none =>
      cases b with
      | none => exact .none
      | some others => exact absurd (missing.mp rfl) (by simp)
  | some windows =>
      cases b with
      | none => exact absurd (missing.mpr rfl) (by simp)
      | some others => exact .some perm

/-- Stale copies of a wake projection unite in any order, and no copy takes back what
another has seen. Only idempotence needs that no window comes twice. -/
theorem mergeWake_join {a b c : Option (List WakeEntry)} (ha : UniqueWindows a) :
    WakeJoin a b c where
  comm := by
    refine sameWindows_of_perm (by simp [and_comm]) ?_
    rw [projectedWindows_mergeWake, projectedWindows_mergeWake]
    exact mergeWindows_unites.comm WakeEntry.observation_injective mergeWindows_unites
  assoc := by
    refine sameWindows_of_perm (by simp [and_assoc]) ?_
    simp only [projectedWindows_mergeWake]
    exact Unites.assoc WakeEntry.observation_injective mergeWindows_unites mergeWindows_unites
      mergeWindows_unites mergeWindows_unites
  idem := by
    refine sameWindows_of_perm (by simp) ?_
    rw [projectedWindows_mergeWake]
    exact mergeWindows_unites.idem WakeEntry.observation_injective ha
  keys := by
    intro v mem
    rw [projectedWindows_mergeWake]
    refine List.count_eq_one_of_mem mergeWindows_unites.unique ?_
    exact mergeWindows_unites.found v.key (List.mem_map_of_mem mem)
  grows := by
    intro v hv w hw same
    rw [projectedWindows_mergeWake] at hw
    obtain ⟨last, count, handled, -⟩ := mergeWindows_unites.value_le hv hw same
    exact ⟨last, count, handled⟩

def seenOnce : WakeEntry := ⟨.paused, 10, 10, 1, false, none⟩
def seenTwice : WakeEntry := { seenOnce with lastAt := 20, count := 2 }
def seenHandled : WakeEntry := { seenOnce with handled := true, handledAt := some 15 }
def seenLater : WakeEntry := ⟨.paused, 30, 30, 1, false, none⟩

theorem mergeWake_join_copies :
    WakeJoin (some [seenTwice]) (some [seenHandled]) (some [seenOnce, seenLater]) :=
  mergeWake_join (by decide)

end AdCoder.BackgroundRuns
