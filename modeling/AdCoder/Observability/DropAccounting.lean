import AdCoder.Observability.DeliveryOrder
import Mathlib.Algebra.BigOperators.Group.List.Basic
import Mathlib.Algebra.GroupWithZero.Nat

/-!
# The accounting of drops

What is addressed to a consumer is accepted by it, reported to it in a notice
that it accepts, or counted as not reported yet, in every run whose consumers
refuse no notice of more than one drop and whose close finds nothing pending.
-/

namespace AdCoder.Observability

open Foundation

variable {δ : Type} {config : ToolActivityConfig δ}

/-- The records that the given ones bring to a consumer's knowledge. -/
def learned (records : List (ToolActivityRecord δ)) : Nat := (records.map (·.weight)).sum

/-- The drops that the notices among the given records report. -/
def reported (records : List (ToolActivityRecord δ)) : Nat :=
  ((records.filter (!·.isEvent)).map (·.weight)).sum

/-- What a frame has on the way to a subscriber. -/
def Frame.load (subscriber : Nat) : Frame δ → Nat
  | .calling other record => if other = subscriber then record.weight else 0
  | .invoking other record => if other = subscriber then record.weight else 0
  | _ => 0

def load (subscriber : Nat) (stack : List (Frame δ)) : Nat :=
  (stack.map (Frame.load subscriber)).sum

/-- What was addressed to a subscriber is known to its consumer or still to be reported. -/
def Subscription.Accounted (s : Subscription δ) : Prop :=
  s.addressed.length =
    (s.accepted.filter (·.isEvent)).length + reported s.accepted + s.dropped

/-- Nothing is under way, and no delivery to the subscriber is unsettled. -/
def ActivitySystem.Quiescent (system : ActivitySystem δ) (s : Subscription δ) : Prop :=
  system.stack = [] ∧ s.promises = []

/-- A consumer that throws or rejects was handed an event or the notice of one drop, and the
loop of `close` finds nothing pending. -/
def Refundable (system : ActivitySystem δ) : ActivityEvent δ → Prop
  | .returns .threw =>
      match system.stack with
      | .calling _ record :: _ => record.weight = 1
      | _ => True
  | .settles subscriber promise false => system.stack = [] →
      ∀ s ∈ system.channel.subscribers[subscriber]?, ∀ record ∈ s.promises[promise]?,
        record.weight = 1
  | .advance =>
      match system.stack with
      | .closing cursor false :: _ => ∀ s ∈ system.channel.subscribers[cursor]?,
          s.member = true → s.pending = 0
      | _ => True
  | _ => True

instance (system : ActivitySystem δ) : (event : ActivityEvent δ) → Decidable (Refundable system event)
  | .returns .threw | .advance => by
      obtain ⟨channel, stack, draining⟩ := system
      dsimp only [Refundable]
      split <;> infer_instance
  | .settles _ _ false => by dsimp only [Refundable]; infer_instance
  | .returns .returned | .returns .promised | .settles _ _ true | .publish _ | .subscribe _
  | .unsubscribe _ | .close _ | .drained => .isTrue trivial

instance (s : Subscription δ) : Decidable s.Accounted :=
  inferInstanceAs (Decidable (_ = _))

/-! ## Sums -/

section Sums

variable {records : List (ToolActivityRecord δ)} {record : ToolActivityRecord δ}
  {subscriber other cursor index : Nat} {stack : List (Frame δ)} {flushed : Bool}

@[simp] theorem learned_nil : learned ([] : List (ToolActivityRecord δ)) = 0 := rfl

@[simp] theorem learned_append_singleton :
    learned (records ++ [record]) = learned records + record.weight := by
  simp [learned]

theorem learned_eraseIdx (found : records[index]? = some record) :
    learned (records.eraseIdx index) + record.weight = learned records := by
  obtain ⟨inside, rfl⟩ := List.getElem?_eq_some_iff.mp found
  have perm := (List.getElem_cons_eraseIdx_perm inside).map (·.weight)
  rw [learned, learned, ← perm.sum_eq, List.map_cons, List.sum_cons, Nat.add_comm]

/-- What is learned is the events and what the notices report. -/
theorem learned_eq : learned records = (records.filter (·.isEvent)).length + reported records := by
  induction records with
  | nil => rfl
  | cons record records ih =>
      simp only [learned, reported, List.map_cons, List.sum_cons] at ih ⊢
      cases record with
      | event e => simp [List.filter_cons, ih]; omega
      | notice n => simp [ih]; omega

@[simp] theorem load_nil : load subscriber ([] : List (Frame δ)) = 0 := rfl

@[simp] theorem load_calling : load subscriber (.calling other record :: stack) =
    load subscriber stack + if other = subscriber then record.weight else 0 := by
  simp [load, Frame.load, Nat.add_comm]

@[simp] theorem load_invoking : load subscriber (.invoking other record :: stack) =
    load subscriber stack + if other = subscriber then record.weight else 0 := by
  simp [load, Frame.load, Nat.add_comm]

@[simp] theorem load_publishing :
    load subscriber (.publishing record cursor :: stack) = load subscriber stack := by
  simp [load, Frame.load]

@[simp] theorem load_replaying :
    load subscriber (.replaying other index :: stack) = load subscriber stack := by
  simp [load, Frame.load]

@[simp] theorem load_closing :
    load subscriber (.closing cursor flushed :: stack) = load subscriber stack := by
  simp [load, Frame.load]

/-- Nothing is on the way to a subscriber that was not added yet. -/
theorem load_eq_zero {channel : ToolActivityChannel δ} (framed : Framed channel stack) :
    load channel.subscribers.length stack = 0 := by
  rw [load, List.sum_eq_zero_iff_forall_eq_nat]
  intro number listed
  obtain ⟨frame, member, rfl⟩ := List.mem_map.mp listed
  have known := framed.known frame member
  cases frame with
  | calling other record => exact if_neg (Nat.ne_of_lt known)
  | invoking other record => exact if_neg (Nat.ne_of_lt known)
  | _ => rfl

end Sums

/-! ## The balance -/

/-- What was addressed is known, on the way, or counted as dropped. -/
def Balanced (stack : List (Frame δ)) (subscriber : Nat) (s : Subscription δ) : Prop :=
  s.addressed.length = learned s.accepted + learned s.promises + load subscriber stack + s.dropped

/-- Every subscriber's balance holds. -/
def AllBalanced (channel : ToolActivityChannel δ) (stack : List (Frame δ)) : Prop :=
  ∀ subscriber s, channel.subscribers[subscriber]? = some s → Balanced stack subscriber s

section Steps

variable {system : ActivitySystem δ} {channel channel' : ToolActivityChannel δ}
  {stack stack' : List (Frame δ)}

/-- Nothing changes but frames that have nothing on the way. -/
theorem AllBalanced.mono (h : AllBalanced channel stack)
    (same : channel'.subscribers = channel.subscribers)
    (kept : ∀ subscriber, load subscriber stack' = load subscriber stack) :
    AllBalanced channel' stack' := by
  intro subscriber s found
  rw [Balanced, kept]
  exact h subscriber s (same ▸ found)

/-- One subscriber and what is on the way to it change. -/
theorem AllBalanced.update (h : AllBalanced channel stack) {subscriber : Nat}
    {f : Subscription δ → Subscription δ}
    (own : ∀ s, channel.subscribers[subscriber]? = some s → Balanced stack subscriber s →
      Balanced stack' subscriber (f s))
    (kept : ∀ other ≠ subscriber, load other stack' = load other stack) :
    AllBalanced (channel.update subscriber f) stack' := by
  refine each_update h own fun other different s balanced => ?_
  rw [Balanced, kept other different]
  exact balanced

theorem AllBalanced.deliver (h : AllBalanced channel stack) (subscriber : Nat)
    {record : ToolActivityRecord δ} (event : record.isEvent = true) :
    AllBalanced (channel.deliver config subscriber record).1
      ((channel.deliver config subscriber record).2 ++ stack) := by
  have one : record.weight = 1 := by
    cases record with
    | event e => rfl
    | notice n => simp at event
  cases found : channel.subscribers[subscriber]? with
  | none => rwa [deliver_none found]
  | some s =>
      cases active : s.active with
      | false => rwa [deliver_inactive found active]
      | true =>
          by_cases full : config.subscriberPendingCapacity ≤ s.pending
          · rw [deliver_full found active full]
            refine h.update (fun t _ balanced => ?_) fun _ _ => rfl
            simp only [Balanced, List.length_append, List.length_singleton, List.nil_append]
              at balanced ⊢
            omega
          by_cases missed : s.dropped = 0
          · rw [deliver_prompt found active (by omega) missed]
            refine h.update (fun t _ balanced => ?_) fun other different => ?_
            · simp only [Balanced, List.length_append, List.length_singleton,
                List.singleton_append, load_calling, if_true, one] at balanced ⊢
              omega
            · simp [Ne.symm different]
          · rw [deliver_behind found active (by omega) missed]
            refine h.update (fun t same balanced => ?_) fun other different => ?_
            · obtain rfl : s = t := Option.some.inj (found.symm.trans same)
              simp only [Balanced, List.length_append, List.length_singleton, List.cons_append,
                List.nil_append, load_calling, load_invoking, if_true, one,
                ToolActivityRecord.weight_notice] at balanced ⊢
              omega
            · simp [Ne.symm different]

/-- Closing over a subscriber that has nothing pending. -/
theorem AllBalanced.closeOver (h : AllBalanced system.channel stack) {cursor : Nat}
    {s : Subscription δ} (found : system.channel.subscribers[cursor]? = some s)
    (settled : s.pending = 0) :
    AllBalanced (system.closeOver cursor s).1 ((system.closeOver cursor s).2 ++ stack) := by
  by_cases silent : s.active = false ∨ s.dropped + s.pending = 0
  · rw [closeOver_silent silent]
    refine h.update (fun t same balanced => ?_) fun _ _ => rfl
    obtain rfl : s = t := Option.some.inj (found.symm.trans same)
    simpa [Balanced, settled] using balanced
  · have active : s.active = true := by simpa using fun h => silent (.inl h)
    rw [closeOver_reports active fun none => silent (.inr none)]
    refine h.update (fun t same balanced => ?_) fun other different => ?_
    · obtain rfl : s = t := Option.some.inj (found.symm.trans same)
      simp only [Balanced, List.singleton_append, load_calling, if_true, settled, Nat.add_zero,
        ToolActivityRecord.weight_notice] at balanced ⊢
      omega
    · simp [Ne.symm different]

theorem AllBalanced.advance (h : AllBalanced system.channel system.stack)
    (framed : Framed system.channel system.stack) (refundable : Refundable system .advance) :
    AllBalanced (system.advance config).channel (system.advance config).stack := by
  rw [Refundable] at refundable
  unfold ActivitySystem.advance
  cases top : system.stack with
  | nil => exact h
  | cons frame rest =>
      rw [top] at refundable framed
      cases frame with
      | publishing record cursor =>
          have next : AllBalanced system.channel (.publishing record (cursor + 1) :: rest) :=
            h.mono rfl (by simp [top])
          dsimp only
          split
          · exact h.mono rfl (by simp [top])
          split
          · exact next.deliver cursor framed.top.1
          · exact next
      | replaying subscriber index =>
          dsimp only
          split
          · exact h.mono rfl (by simp [top])
          next record found =>
            have next : AllBalanced system.channel (.replaying subscriber (index + 1) :: rest) :=
              h.mono rfl (by simp [top])
            exact next.deliver subscriber (framed.retained record (List.mem_of_getElem? found)).1
      | closing cursor flushed =>
          have next (at' : Nat) (done : Bool) :
              AllBalanced system.channel (.closing at' done :: rest) :=
            h.mono rfl (by simp [top])
          cases flushed with
          | false =>
              dsimp only
              split
              · intro subscriber s found
                rw [List.getElem?_map, Option.map_eq_some_iff] at found
                obtain ⟨was, found, rfl⟩ := found
                simpa [Balanced, top] using h subscriber was found
              next s found =>
                split
                next member => exact (next cursor true).closeOver found (refundable s found member)
                · exact next (cursor + 1) false
          | true => exact (next (cursor + 1) false).update (fun _ _ kept => kept) fun _ _ => rfl
      | invoking subscriber record =>
          refine h.update (fun t _ balanced => ?_) fun other different => ?_
          · simpa [Balanced, top, ActivitySystem.goOn, ToolActivityChannel.invoke] using balanced
          · simp [top, ActivitySystem.goOn, ToolActivityChannel.invoke, Ne.symm different]
      | calling subscriber record => exact h

theorem AllBalanced.returns (h : AllBalanced system.channel system.stack)
    {outcome : ConsumerOutcome} (refundable : Refundable system (.returns outcome)) :
    AllBalanced (system.returns outcome).channel (system.returns outcome).stack := by
  unfold ActivitySystem.returns
  split
  next subscriber record rest top =>
    have others (other : Nat) (different : other ≠ subscriber) :
        load other rest = load other system.stack := by
      simp [top, Ne.symm different]
    have own : load subscriber system.stack = load subscriber rest + record.weight := by
      simp [top]
    cases outcome with
    | returned =>
        refine h.update (fun t _ balanced => ?_) others
        simp only [Balanced, learned_append_singleton] at balanced ⊢
        omega
    | threw =>
        have one : record.weight = 1 := by simpa [Refundable, top] using refundable
        refine h.update (fun t _ balanced => ?_) others
        simp only [Balanced] at balanced ⊢
        omega
    | promised =>
        refine h.update (fun t _ balanced => ?_) others
        simp only [Balanced, learned_append_singleton] at balanced ⊢
        omega
  · exact h

theorem AllBalanced.settles (h : AllBalanced system.channel system.stack)
    {subscriber promise : Nat} {accepted : Bool}
    (refundable : Refundable system (.settles subscriber promise accepted)) :
    AllBalanced (system.settles subscriber promise accepted).channel
      (system.settles subscriber promise accepted).stack := by
  unfold ActivitySystem.settles
  split
  next record idle found =>
    obtain ⟨s, known, promised⟩ := Option.bind_eq_some_iff.mp found
    have erased := learned_eraseIdx promised
    dsimp only
    cases accepted with
    | true =>
        rw [if_pos rfl, ToolActivityChannel.accept, update_update]
        refine h.update (fun t same balanced => ?_) fun _ _ => rfl
        obtain rfl : s = t := Option.some.inj (known.symm.trans same)
        simp only [Balanced, Function.comp_apply, learned_append_singleton] at balanced ⊢
        omega
    | false =>
        have one : record.weight = 1 := refundable idle s known record promised
        rw [if_neg (by simp), ToolActivityChannel.refuse, update_update]
        refine h.update (fun t same balanced => ?_) fun _ _ => rfl
        obtain rfl : s = t := Option.some.inj (known.symm.trans same)
        simp only [Balanced, Function.comp_apply] at balanced ⊢
        omega
  · exact h

theorem allBalanced_next {event : ActivityEvent δ} (h : AllBalanced system.channel system.stack)
    (framed : Framed system.channel system.stack) (refundable : Refundable system event) :
    AllBalanced (system.next config event).channel (system.next config event).stack := by
  cases event with
  | publish publication =>
      simp only [ActivitySystem.next, ActivitySystem.publish]
      split_ifs
      · exact h
      · exact h
      · exact h.mono (retain_subscribers _) fun _ => load_publishing
      · exact h.mono rfl fun _ => rfl
      · exact h
  | subscribe replay =>
      simp only [ActivitySystem.next, ActivitySystem.subscribe]
      have added : AllBalanced { system.channel with
          subscribers := system.channel.subscribers ++ [.fresh] } system.stack := by
        refine each_append h (fun _ _ kept => kept) ?_
        simp [Balanced, Subscription.fresh, load_eq_zero framed]
      split_ifs
      · exact h
      · exact added.mono rfl fun _ => load_replaying
      · exact added
      · exact h
  | unsubscribe subscriber =>
      simp only [ActivitySystem.next, ActivitySystem.unsubscribe]
      split_ifs
      · exact h.update (fun _ _ kept => kept) fun _ _ => rfl
      · exact h
  | close lingering =>
      simp only [ActivitySystem.next, ActivitySystem.close]
      split_ifs
      · exact h
      · exact h
      · exact h.mono rfl fun _ => load_closing
      · exact h
  | drained =>
      simp only [ActivitySystem.next]
      split_ifs with waits
      · simp only [Bool.and_eq_true, List.isEmpty_iff] at waits
        exact h.mono rfl (by simp [waits.2])
      · exact h
  | advance => exact h.advance framed refundable
  | returns outcome => exact h.returns refundable
  | settles subscriber promise accepted => exact h.settles refundable

end Steps

/-- In a run whose refusals can be made up for, what was addressed to a subscriber is accounted
for whenever nothing is under way. -/
theorem drops_accounted {made : List (ActivityEvent δ)} {system : ActivitySystem δ}
    (run : Run (Guarded (ActivitySystem.Steps config) Refundable) .initial made system)
    {subscriber : Nat} {s : Subscription δ}
    (subscribed : system.channel.subscribers[subscriber]? = some s)
    (quiescent : system.Quiescent s) : s.Accounted := by
  have inv : Framed system.channel system.stack ∧ AllBalanced system.channel system.stack := by
    refine run.invariant (I := fun system =>
      Framed system.channel system.stack ∧ AllBalanced system.channel system.stack) ?_
        ⟨framed_initial, by simp [AllBalanced, ActivitySystem.initial]⟩
    rintro before event after ⟨framed, balanced⟩ ⟨refundable, rfl⟩
    exact ⟨framed_next framed event, allBalanced_next balanced framed refundable⟩
  have balanced := inv.2 subscriber s subscribed
  rw [Balanced, quiescent.1, quiescent.2, learned_eq] at balanced
  simpa [Subscription.Accounted] using balanced

/-! ## Scripts -/

section Scripts

/-- Publications that find the first one still pending, and then one that does not. -/
def missing (count : Nat) : List (ActivityEvent Unit) :=
  [.subscribe false] ++ published .promised ++
    (List.replicate count [started, .advance, .advance]).flatten ++ [.settles 0 0 true, started,
      .advance]

/-- How the calls for a notice and for the record behind it end. -/
def answers (notice record : ConsumerOutcome) : List (ActivityEvent Unit) :=
  [.returns notice, .advance, .returns record, .advance]

theorem drops_accounted_recovered :
    ∃ (made : List (ActivityEvent Unit)) (system : ActivitySystem Unit) (s : Subscription Unit),
      Run (ActivitySystem.Steps narrow) .initial made system ∧
      system.channel.subscribers[0]? = some s ∧ s.addressed.length = 4 ∧
      s.accepted.length = 3 ∧ s.Accounted := by
  let made := missing 2 ++ answers .returned .returned
  have run : Run (Guarded (ActivitySystem.Steps narrow) Refundable) .initial made
      (made.foldl (ActivitySystem.next narrow) .initial) :=
    Run.guarded_foldl (fun system event (ok : decide (Refundable system event) = true) =>
      of_decide_eq_true ok) (by decide +kernel)
  exact ⟨_, _, _, run.forget, rfl, rfl, rfl,
    @drops_accounted _ _ _ _ run 0 _ rfl ⟨rfl, rfl⟩⟩

/-- The notice of two drops is refused: the counter was reset for it, and holds one. -/
theorem drops_accounted_refuted :
    ¬ ∀ (config : ToolActivityConfig Unit) (made : List (ActivityEvent Unit))
      (system : ActivitySystem Unit) (subscriber : Nat) (s : Subscription Unit),
      Run (ActivitySystem.Steps config) .initial made system →
        system.channel.subscribers[subscriber]? = some s → system.Quiescent s →
          s.Accounted := by
  intro claimed
  have run := Run.foldl (ActivitySystem.next narrow) .initial
    (missing 2 ++ answers .threw .returned)
  have accounted := claimed narrow _ _ 0 _ run rfl ⟨rfl, rfl⟩
  revert accounted
  decide +kernel

end Scripts

end AdCoder.Observability
