import AdCoder.Observability.ToolActivityRuns

/-!
# The order and the bound of deliveries

A consumer is handed records in the order of their numbers, and is not behind
with more deliveries than its subscription may have pending, in every run whose
loops come to a subscriber that has nothing to report, in the order of the
records, and whose close finds room for a last notice.
-/

namespace AdCoder.Observability

open Foundation

variable {δ : Type} {config : ToolActivityConfig δ}

/-- A call of the consumer of one subscriber. -/
def Frame.calls (subscriber : Nat) : Frame δ → Bool
  | .calling other _ => other == subscriber
  | _ => false

/-- The calls of a subscriber's consumer that are under way. -/
def calls (subscriber : Nat) (stack : List (Frame δ)) : Nat :=
  stack.countP (Frame.calls subscriber)

/-- The deliveries to a subscriber that have not settled: calls and promises. -/
def ActivitySystem.unsettled (system : ActivitySystem δ) (subscriber : Nat)
    (s : Subscription δ) : Nat :=
  calls subscriber system.stack + s.promises.length

/-! ## The condition -/

/-- A record that a subscriber has room for finds nothing to report, and none of the same number
or a later one was addressed to the subscriber before. -/
def Timely (config : ToolActivityConfig δ) (s : Subscription δ)
    (record : ToolActivityRecord δ) : Prop :=
  s.active = true → s.pending < config.subscriberPendingCapacity →
    s.dropped = 0 ∧ ∀ earlier ∈ s.addressed, earlier.sequence < record.sequence

/-- The loops of `publish` and `subscribe` come to a subscriber with a record that is timely, and
the loop of `close` comes to one that has room. -/
def Unhurried (config : ToolActivityConfig δ) (system : ActivitySystem δ) :
    ActivityEvent δ → Prop
  | .advance =>
      match system.stack with
      | .publishing record cursor :: _ => ∀ s ∈ system.channel.subscribers[cursor]?,
          s.member = true → Timely config s record
      | .replaying subscriber index :: _ => ∀ s ∈ system.channel.subscribers[subscriber]?,
          ∀ record ∈ system.channel.retained[index]?, Timely config s record
      | .closing cursor false :: _ => ∀ s ∈ system.channel.subscribers[cursor]?,
          s.member = true → s.active = true → s.pending < config.subscriberPendingCapacity
      | _ => True
  | _ => True

instance (config : ToolActivityConfig δ) (s : Subscription δ) (record : ToolActivityRecord δ) :
    Decidable (Timely config s record) :=
  inferInstanceAs (Decidable (_ → _ → _ ∧ ∀ earlier ∈ s.addressed, _))

instance (config : ToolActivityConfig δ) (system : ActivitySystem δ) (event : ActivityEvent δ) :
    Decidable (Unhurried config system event) := by
  unfold Unhurried
  split
  · split <;> infer_instance
  · infer_instance

/-! ## One subscriber -/

/-- What holds of a subscriber, with the channel's last number and what is under way. -/
structure Delivered (config : ToolActivityConfig δ) (sequence : Nat) (stack : List (Frame δ))
    (subscriber : Nat) (s : Subscription δ) : Prop where
  pending : s.pending = calls subscriber stack + s.promises.length
  bounded : s.pending ≤ config.subscriberPendingCapacity
  ordered : (s.handed.map (·.sequence)).Pairwise (· < ·)
  addressed : ∀ record ∈ s.handed, record.isEvent = true → record ∈ s.addressed
  numbered : ∀ record ∈ s.handed, record.sequence ≤ sequence
  -- A notice is only handed over while the channel closes, and then nothing else is.
  notified : (∃ record ∈ s.handed, record.isEvent = false) →
    s.active = false ∨ .closing subscriber true ∈ stack

section Calls

variable {subscriber other cursor index : Nat} {record : ToolActivityRecord δ}
  {stack : List (Frame δ)} {flushed : Bool}

@[simp] theorem calls_nil : calls subscriber ([] : List (Frame δ)) = 0 := rfl

@[simp] theorem calls_calling : calls subscriber (.calling other record :: stack) =
    calls subscriber stack + if other = subscriber then 1 else 0 := by
  simp [calls, List.countP_cons, Frame.calls]

@[simp] theorem calls_publishing :
    calls subscriber (.publishing record cursor :: stack) = calls subscriber stack := rfl

@[simp] theorem calls_replaying :
    calls subscriber (.replaying other index :: stack) = calls subscriber stack := rfl

@[simp] theorem calls_closing :
    calls subscriber (.closing cursor flushed :: stack) = calls subscriber stack := rfl

@[simp] theorem calls_invoking :
    calls subscriber (.invoking other record :: stack) = calls subscriber stack := rfl

theorem calls_eq_zero (h : ∀ record, .calling subscriber record ∉ stack) :
    calls subscriber stack = 0 := by
  rw [calls, List.countP_eq_zero]
  intro frame member called
  cases frame with
  | calling other record =>
      obtain rfl : other = subscriber := by simpa [Frame.calls] using called
      exact h record member
  | _ => simp [Frame.calls] at called

end Calls

namespace Delivered

variable {sequence sequence' subscriber : Nat} {stack stack' : List (Frame δ)}
  {s : Subscription δ}

/-- Numbers grow, and other frames come and go. -/
theorem mono (h : Delivered config sequence stack subscriber s) (grown : sequence ≤ sequence')
    (same : calls subscriber stack' = calls subscriber stack)
    (kept : .closing subscriber true ∈ stack → .closing subscriber true ∈ stack') :
    Delivered config sequence' stack' subscriber s where
  pending := same ▸ h.pending
  bounded := h.bounded
  ordered := h.ordered
  addressed := h.addressed
  numbered record member := Nat.le_trans (h.numbered record member) grown
  notified reported := (h.notified reported).imp_right kept

/-- Handing over a record that is later than all before it. -/
theorem handed (h : Delivered config sequence stack subscriber s)
    {record : ToolActivityRecord δ} {s' : Subscription δ}
    (room : s.pending < config.subscriberPendingCapacity)
    (later : ∀ earlier ∈ s.handed, earlier.sequence < record.sequence)
    (upTo : sequence ≤ sequence') (last : record.sequence ≤ sequence')
    (pending : s'.pending = s.pending + 1) (promises : s'.promises = s.promises)
    (given : s'.handed = s.handed ++ [record])
    (addressed : ∀ r ∈ s.addressed, r ∈ s'.addressed)
    (event : record.isEvent = true → record ∈ s'.addressed)
    (same : calls subscriber stack' = calls subscriber stack + 1)
    (notified : (∃ r ∈ s'.handed, r.isEvent = false) →
      s'.active = false ∨ .closing subscriber true ∈ stack') :
    Delivered config sequence' stack' subscriber s' where
  pending := by rw [pending, promises, same, h.pending]; omega
  bounded := by omega
  ordered := by
    rw [given, List.map_append, List.pairwise_append]
    refine ⟨h.ordered, by simp, ?_⟩
    intro number old last hlast
    obtain ⟨earlier, member, rfl⟩ := List.mem_map.mp old
    obtain rfl : last = record.sequence := by simpa using hlast
    exact later earlier member
  addressed r member isEvent := by
    rw [given, List.mem_append, List.mem_singleton] at member
    rcases member with old | rfl
    · exact addressed r (h.addressed r old isEvent)
    · exact event isEvent
  numbered r member := by
    rw [given, List.mem_append, List.mem_singleton] at member
    rcases member with old | rfl
    · exact Nat.le_trans (h.numbered r old) upTo
    · exact last
  notified := notified

end Delivered

/-! ## Frames -/

def Frame.isClosing : Frame δ → Bool
  | .closing _ _ => true
  | _ => false

/-- No frame of `close` is among these. -/
def Closeless (stack : List (Frame δ)) : Prop := ∀ frame ∈ stack, frame.isClosing = false

/-- A frame of `close` is the innermost channel code. -/
inductive Sealed : List (Frame δ) → Prop
  | closeless {stack : List (Frame δ)} (h : Closeless stack) : Sealed stack
  | closing (cursor : Nat) (flushed : Bool) {rest : List (Frame δ)} (h : Closeless rest) :
      Sealed (.closing cursor flushed :: rest)
  | reporting (subscriber : Nat) (record : ToolActivityRecord δ) (cursor : Nat) (flushed : Bool)
      {rest : List (Frame δ)} (h : Closeless rest) :
      Sealed (.calling subscriber record :: .closing cursor flushed :: rest)

section Frames

variable {frame : Frame δ} {rest : List (Frame δ)}

theorem Closeless.cons (h : Closeless rest) (other : frame.isClosing = false) :
    Closeless (frame :: rest) :=
  List.forall_mem_cons.mpr ⟨other, h⟩

theorem Closeless.tail (h : Closeless (frame :: rest)) : Closeless rest :=
  (List.forall_mem_cons.mp h).2

/-- Under a frame of another kind than a consumer's call, nothing closes the channel. -/
theorem Sealed.under (h : Sealed (frame :: rest))
    (code : ∀ subscriber record, frame ≠ .calling subscriber record) : Closeless rest := by
  cases h with
  | closeless h => exact h.tail
  | closing _ _ h => exact h
  | reporting subscriber record => exact absurd rfl (code subscriber record)

theorem Sealed.returned {subscriber : Nat} {record : ToolActivityRecord δ}
    (h : Sealed (.calling subscriber record :: rest)) : Sealed rest := by
  cases h with
  | closeless h => exact .closeless h.tail
  | reporting _ _ cursor flushed h => exact .closing cursor flushed h

end Frames

/-! ## The invariant -/

/-- No notice is followed by its record, and only `close` is at work when the channel closes. -/
structure Calm (closed : Bool) (stack : List (Frame δ)) : Prop where
  noNotice : ∀ subscriber record, .invoking subscriber record ∉ stack
  sealedOff : Sealed stack
  opened : closed = false → Closeless stack

structure InOrder (config : ToolActivityConfig δ) (system : ActivitySystem δ) : Prop where
  each : ∀ subscriber s, system.channel.subscribers[subscriber]? = some s →
    Delivered config system.channel.sequence system.stack subscriber s
  calm : Calm system.channel.closed system.stack
  draining : system.draining = true → system.channel.closed = true

section Steps

variable {system : ActivitySystem δ} {channel : ToolActivityChannel δ} {stack : List (Frame δ)}
  {frame : Frame δ}

/-- Code that does not close the channel is on the way. -/
theorem Calm.push {closed : Bool} (h : Calm closed stack) (isOpen : Closeless stack)
    (other : frame.isClosing = false)
    (code : ∀ subscriber record, frame ≠ .invoking subscriber record) :
    Calm closed (frame :: stack) where
  noNotice subscriber record member := by
    rcases List.mem_cons.mp member with same | member
    · exact code subscriber record same.symm
    · exact h.noNotice subscriber record member
  sealedOff := .closeless (isOpen.cons other)
  opened _ := isOpen.cons other

theorem Calm.closing {closed : Bool} (h : Calm closed stack) (cursor : Nat) (flushed : Bool)
    (isOpen : Closeless stack) : Calm true (.closing cursor flushed :: stack) where
  noNotice := by simpa using h.noNotice
  sealedOff := .closing cursor flushed isOpen
  opened notClosed := by simp at notClosed

theorem Calm.pop {closed : Bool} (h : Calm closed (frame :: stack))
    (code : ∀ subscriber record, frame ≠ .calling subscriber record) : Calm closed stack where
  noNotice subscriber record member := h.noNotice subscriber record (.tail _ member)
  sealedOff := .closeless (h.sealedOff.under code)
  opened _ := h.sealedOff.under code

theorem InOrder.closeless (inv : InOrder config system) (isOpen : system.channel.closed = false) :
    Closeless system.stack ∧ system.draining = false := by
  refine ⟨inv.calm.opened isOpen, ?_⟩
  by_contra draining
  simp [inv.draining (by simpa using draining)] at isOpen

/-- Numbers grow, and frames that are no consumer's call come and go. -/
theorem each_mono {channel' : ToolActivityChannel δ} {sequence sequence' : Nat}
    {stack' : List (Frame δ)}
    (each : ∀ subscriber s, channel.subscribers[subscriber]? = some s →
      Delivered config sequence stack subscriber s)
    (same : channel'.subscribers = channel.subscribers) (grown : sequence ≤ sequence')
    (called : ∀ subscriber, calls subscriber stack' = calls subscriber stack)
    (kept : ∀ subscriber, .closing subscriber true ∈ stack → .closing subscriber true ∈ stack') :
    ∀ subscriber s, channel'.subscribers[subscriber]? = some s →
      Delivered config sequence' stack' subscriber s :=
  fun subscriber s found =>
    (each subscriber s (same ▸ found)).mono grown (called subscriber) (kept subscriber)

/-! ## Delivering -/

/-- Delivering a timely event keeps the order. -/
theorem InOrder.deliver {subscriber : Nat} {record : ToolActivityRecord δ}
    (inv : InOrder config system) (isOpen : Closeless system.stack)
    (event : Numbered system.channel.sequence record)
    (timely : ∀ s ∈ system.channel.subscribers[subscriber]?, Timely config s record) :
    InOrder config
      (system.goOn (system.channel.deliver config subscriber record) system.stack) := by
  cases found : system.channel.subscribers[subscriber]? with
  | none =>
      rw [deliver_none found]
      exact inv
  | some s =>
      have delivered := inv.each subscriber s found
      have prompt := timely s found
      cases active : s.active with
      | false =>
          rw [deliver_inactive found active]
          exact inv
      | true =>
          by_cases full : config.subscriberPendingCapacity ≤ s.pending
          · rw [deliver_full found active full]
            refine ⟨each_update inv.each ?_ (fun _ _ _ kept => kept), inv.calm, inv.draining⟩
            intro before was kept
            exact ⟨kept.pending, kept.bounded, kept.ordered,
              fun r member isEvent => List.mem_append_left _ (kept.addressed r member isEvent),
              kept.numbered, kept.notified⟩
          · obtain ⟨reported, later⟩ := prompt active (by omega)
            rw [deliver_prompt found active (by omega) reported]
            -- No notice was handed over yet: the subscriber is active, and nothing closes.
            have events : ∀ r ∈ s.handed, r.isEvent = true := by
              intro r member
              by_contra notice
              rcases delivered.notified ⟨r, member, by simpa using notice⟩ with stopped | closing
              · simp [active] at stopped
              · exact absurd (isOpen _ closing) (by simp [Frame.isClosing])
            refine ⟨each_update inv.each ?_ ?_, inv.calm.push isOpen rfl (by simp), inv.draining⟩
            · intro before was kept
              obtain rfl : s = before := Option.some.inj (found.symm.trans was)
              refine kept.handed (by omega) ?_ (Nat.le_refl _) event.2 rfl rfl rfl
                (fun r member => List.mem_append_left _ member) (fun _ => by simp)
                (by simp [ActivitySystem.goOn]) ?_
              · exact fun earlier member =>
                  later earlier (kept.addressed earlier member (events earlier member))
              · rintro ⟨r, member, notice⟩
                rcases List.mem_append.mp member with old | new
                · simp [events r old] at notice
                · obtain rfl : r = record := by simpa using new
                  simp [event.1] at notice
            · intro other different t kept
              exact kept.mono (Nat.le_refl _) (by simp [ActivitySystem.goOn, Ne.symm different])
                fun closing => .tail _ closing

/-! ## Calls of the channel -/

theorem InOrder.publish (inv : InOrder config system) (publication : Publication δ) :
    InOrder config (system.publish config publication) := by
  unfold ActivitySystem.publish
  split
  · exact inv
  split
  · exact inv
  next notClosed known =>
    obtain ⟨isOpen, running⟩ := inv.closeless (by simpa using notClosed)
    dsimp only
    split
    · refine ⟨each_mono inv.each (retain_subscribers _) (by simp [ActivitySystem.goOn])
        (fun _ => rfl) (fun _ closing => .tail _ closing), ?_, ?_⟩
      · simpa [ActivitySystem.goOn] using inv.calm.push isOpen rfl (by simp)
      · simp [ActivitySystem.goOn, running]
    · exact ⟨each_mono inv.each rfl (Nat.le_succ _) (fun _ => rfl) (fun _ closing => closing),
        inv.calm, inv.draining⟩

/-- A new subscriber has nothing under way. -/
theorem InOrder.added (inv : InOrder config system)
    (framed : Framed system.channel system.stack) :
    InOrder config { system with channel := { system.channel with
      subscribers := system.channel.subscribers ++ [.fresh] } } where
  each := by
    refine each_append inv.each (fun _ _ kept => kept) ?_
    have none : calls system.channel.subscribers.length system.stack = 0 :=
      calls_eq_zero fun record member => Nat.lt_irrefl _ (framed.known _ member)
    exact ⟨by simp [none, Subscription.fresh], Nat.zero_le _, by simp [Subscription.fresh],
      by simp [Subscription.fresh], by simp [Subscription.fresh], by simp [Subscription.fresh]⟩
  calm := inv.calm
  draining := inv.draining

theorem InOrder.subscribe (inv : InOrder config system)
    (framed : Framed system.channel system.stack) (replay : Bool) :
    InOrder config (system.subscribe replay) := by
  unfold ActivitySystem.subscribe
  split
  · exact inv
  next notClosed =>
    obtain ⟨isOpen, running⟩ := inv.closeless (by simpa using notClosed)
    have added := inv.added framed
    cases replay with
    | false => exact added
    | true =>
        exact ⟨each_mono added.each rfl (Nat.le_refl _) (fun _ => rfl) (fun _ h => .tail _ h),
          added.calm.push isOpen rfl (by simp), added.draining⟩

theorem InOrder.unsubscribe (inv : InOrder config system) (subscriber : Nat) :
    InOrder config (system.unsubscribe subscriber) := by
  refine ⟨each_update inv.each ?_ (fun _ _ _ kept => kept), inv.calm, inv.draining⟩
  intro s found kept
  exact ⟨kept.pending, kept.bounded, kept.ordered, kept.addressed, kept.numbered,
    fun _ => .inl rfl⟩

theorem InOrder.close (inv : InOrder config system) (lingering : Bool) :
    InOrder config (system.close config lingering) := by
  unfold ActivitySystem.close
  split
  · exact inv
  next notClosed =>
    obtain ⟨isOpen, running⟩ := inv.closeless (by simpa using notClosed)
    dsimp only
    split
    · exact ⟨inv.each, ⟨inv.calm.noNotice, inv.calm.sealedOff, fun h => by simp at h⟩,
        fun _ => rfl⟩
    · exact ⟨each_mono inv.each rfl (Nat.le_refl _) (fun _ => rfl) (fun _ h => .tail _ h),
        inv.calm.closing 0 false isOpen, fun _ => rfl⟩

theorem InOrder.drained (inv : InOrder config system) (draining : system.draining = true)
    (idle : system.stack = []) :
    InOrder config { system with stack := [.closing 0 false], draining := false } := by
  have calm := inv.calm
  rw [idle, inv.draining draining] at calm
  refine ⟨each_mono inv.each rfl (Nat.le_refl _) (fun _ => by simp [idle]) (by simp [idle]), ?_,
    by simp⟩
  simpa [inv.draining draining] using calm.closing 0 false (by simp [Closeless])

/-! ## The channel goes on -/

/-- A frame that is no consumer's call is done. -/
theorem InOrder.pop (inv : InOrder config system) (top : system.stack = frame :: stack)
    (code : ∀ subscriber record, frame ≠ .calling subscriber record)
    (unflushed : ∀ cursor, frame ≠ .closing cursor true) :
    InOrder config { system with stack := stack } := by
  refine ⟨each_mono inv.each rfl (Nat.le_refl _) ?_ ?_, (top ▸ inv.calm).pop code, inv.draining⟩
  · intro subscriber
    rw [top]
    cases frame with
    | calling other record => exact absurd rfl (code other record)
    | _ => simp
  · intro subscriber closing
    rw [top] at closing
    rcases List.mem_cons.mp closing with same | closing
    · exact absurd same.symm (unflushed subscriber)
    · exact closing

/-- Where `close` is the innermost code, it is the only one, and the channel is closed. -/
theorem InOrder.closing (inv : InOrder config system) {cursor : Nat} {flushed : Bool}
    (top : system.stack = .closing cursor flushed :: stack) :
    Closeless stack ∧ system.channel.closed = true := by
  refine ⟨(top ▸ inv.calm.sealedOff).under (by simp), ?_⟩
  by_contra notClosed
  have none := inv.calm.opened (by simpa using notClosed) (.closing cursor flushed) (by simp [top])
  simp [Frame.isClosing] at none

/-- The loop of `close` goes on. -/
theorem InOrder.reclose (inv : InOrder config { system with stack := stack })
    (isOpen : Closeless stack) (closed : system.channel.closed = true) (cursor : Nat)
    (flushed : Bool) : InOrder config { system with stack := .closing cursor flushed :: stack } :=
  ⟨each_mono inv.each rfl (Nat.le_refl _) (fun _ => rfl) (fun _ h => .tail _ h),
    by simpa [closed] using inv.calm.closing cursor flushed isOpen, inv.draining⟩

/-- The loop of `close` comes to a subscriber that has room. -/
theorem InOrder.closeOver (inv : InOrder config system) {cursor : Nat} {s : Subscription δ}
    (top : system.stack = .closing cursor false :: stack)
    (found : system.channel.subscribers[cursor]? = some s)
    (room : s.active = true → s.pending < config.subscriberPendingCapacity) :
    InOrder config
      (system.goOn (system.closeOver cursor s) (.closing cursor true :: stack)) := by
  obtain ⟨isOpen, closed⟩ := inv.closing top
  have next := (inv.pop top (by simp) (by simp)).reclose isOpen closed cursor true
  by_cases silent : s.active = false ∨ s.dropped + s.pending = 0
  · rw [closeOver_silent silent]
    refine ⟨each_update next.each ?_ (fun _ _ _ kept => kept), next.calm, next.draining⟩
    intro t _ kept
    exact ⟨kept.pending, kept.bounded, kept.ordered, kept.addressed, kept.numbered, kept.notified⟩
  · have active : s.active = true := by simpa using fun h => silent (.inl h)
    rw [closeOver_reports active fun none => silent (.inr none)]
    refine ⟨each_update next.each ?_ ?_, ?_, next.draining⟩
    · intro t same kept
      obtain rfl : s = t := Option.some.inj (found.symm.trans same)
      refine kept.handed (room active) ?_ (Nat.le_succ _) (Nat.le_refl _) rfl rfl rfl
        (fun _ h => h) (by simp) (by simp [ActivitySystem.goOn]) (fun _ => .inr (.tail _ (.head _)))
      exact fun earlier member => Nat.lt_succ_of_le (kept.numbered earlier member)
    · intro other different t kept
      exact kept.mono (Nat.le_succ _) (by simp [ActivitySystem.goOn, Ne.symm different])
        fun closing => .tail _ closing
    · exact ⟨by simpa [ActivitySystem.goOn] using next.calm.noNotice,
        .reporting cursor _ cursor true isOpen,
        fun notClosed => absurd (closed.symm.trans notClosed) (by simp)⟩

theorem InOrder.advance (inv : InOrder config system)
    (framed : Framed system.channel system.stack)
    (unhurried : Unhurried config system .advance) : InOrder config (system.advance config) := by
  rw [Unhurried] at unhurried
  unfold ActivitySystem.advance
  cases top : system.stack with
  | nil => exact inv
  | cons frame stack =>
      rw [top] at unhurried framed
      cases frame with
      | publishing record cursor =>
          have isOpen : Closeless stack := (top ▸ inv.calm.sealedOff).under (by simp)
          have popped := inv.pop top (by simp) (by simp)
          have next : InOrder config
              { system with stack := .publishing record (cursor + 1) :: stack } :=
            ⟨each_mono popped.each rfl (Nat.le_refl _) (fun _ => rfl) (fun _ h => .tail _ h),
              popped.calm.push isOpen rfl (by simp), inv.draining⟩
          dsimp only
          split
          · exact popped
          next s found =>
            split
            next member =>
              exact next.deliver (isOpen.cons rfl) framed.top fun t same =>
                unhurried t same (Option.some.inj (found.symm.trans same) ▸ member)
            · exact next
      | replaying subscriber index =>
          have isOpen : Closeless stack := (top ▸ inv.calm.sealedOff).under (by simp)
          have popped := inv.pop top (by simp) (by simp)
          have next : InOrder config
              { system with stack := .replaying subscriber (index + 1) :: stack } :=
            ⟨each_mono popped.each rfl (Nat.le_refl _) (fun _ => rfl) (fun _ h => .tail _ h),
              popped.calm.push isOpen rfl (by simp), inv.draining⟩
          dsimp only
          split
          · exact popped
          next record found =>
            exact next.deliver (isOpen.cons rfl)
              (framed.retained record (List.mem_of_getElem? found)) fun t same =>
                unhurried t same record found
      | closing cursor flushed =>
          obtain ⟨isOpen, closed⟩ := inv.closing top
          cases flushed with
          | false =>
              have popped := inv.pop top (by simp) (by simp)
              dsimp only
              split
              · refine ⟨fun subscriber s found => ?_, popped.calm, inv.draining⟩
                rw [List.getElem?_map, Option.map_eq_some_iff] at found
                obtain ⟨was, found, rfl⟩ := found
                have kept := popped.each subscriber was found
                exact ⟨kept.pending, kept.bounded, kept.ordered, kept.addressed, kept.numbered,
                  kept.notified⟩
              next s found =>
                split
                next member => exact inv.closeOver top found (unhurried s found member)
                · exact popped.reclose isOpen closed (cursor + 1) false
          | true =>
              have calm := (top ▸ inv.calm).pop (by simp)
              refine ⟨each_update inv.each ?_ ?_, ?_, inv.draining⟩
              · intro s found kept
                exact ⟨by simpa [top] using kept.pending, kept.bounded, kept.ordered,
                  kept.addressed, kept.numbered, fun _ => .inl rfl⟩
              · intro other different s kept
                refine kept.mono (Nat.le_refl _) (by simp [top]) fun closing => ?_
                rw [top] at closing
                rcases List.mem_cons.mp closing with same | closing
                · cases same
                  exact absurd rfl different
                · exact .tail _ closing
              · simpa [closed, ToolActivityChannel.update] using
                  calm.closing (cursor + 1) false isOpen
      | invoking subscriber record =>
          exact absurd (by simp [top]) (inv.calm.noNotice subscriber record)
      | calling subscriber record => exact inv

/-! ## Deliveries settle -/

/-- One of a subscriber's deliveries settles. -/
theorem Delivered.settled {sequence subscriber : Nat} {stack' : List (Frame δ)}
    {s s' : Subscription δ} (h : Delivered config sequence stack subscriber s)
    (pending : s'.pending = s.pending - 1)
    (one : calls subscriber stack + s.promises.length =
      calls subscriber stack' + s'.promises.length + 1)
    (handed : s'.handed = s.handed) (addressed : s'.addressed = s.addressed)
    (active : s'.active = s.active)
    (kept : .closing subscriber true ∈ stack → .closing subscriber true ∈ stack') :
    Delivered config sequence stack' subscriber s' where
  pending := by rw [pending, h.pending]; omega
  bounded := by have := h.bounded; omega
  ordered := handed ▸ h.ordered
  addressed := by rw [handed, addressed]; exact h.addressed
  numbered := handed ▸ h.numbered
  notified reported := by
    rw [handed] at reported
    rw [active]
    exact (h.notified reported).imp_right kept

theorem InOrder.returns (inv : InOrder config system) (outcome : ConsumerOutcome) :
    InOrder config (system.returns outcome) := by
  unfold ActivitySystem.returns
  split
  next subscriber record rest top =>
    have calm : Calm system.channel.closed rest :=
      ⟨fun other r member => inv.calm.noNotice other r (top ▸ .tail _ member),
        (top ▸ inv.calm.sealedOff).returned, fun isOpen => (top ▸ inv.calm.opened isOpen).tail⟩
    have kept (other : Nat) (closing : .closing other true ∈ system.stack) :
        .closing other true ∈ rest := by
      simpa [top] using closing
    have others (other : Nat) (different : other ≠ subscriber) (s : Subscription δ)
        (own : Delivered config system.channel.sequence system.stack other s) :
        Delivered config system.channel.sequence rest other s :=
      own.mono (Nat.le_refl _) (by simp [top, Ne.symm different]) (kept other)
    have called (s : Subscription δ) : calls subscriber system.stack + s.promises.length =
        calls subscriber rest + s.promises.length + 1 := by
      simp only [top, calls_calling, if_true]
      omega
    cases outcome with
    | returned =>
        exact ⟨each_update inv.each (fun s _ own => own.settled rfl (called s) rfl rfl rfl (kept _))
          others, calm, inv.draining⟩
    | threw =>
        exact ⟨each_update inv.each (fun s _ own => own.settled rfl (called s) rfl rfl rfl (kept _))
          others, calm, inv.draining⟩
    | promised =>
        refine ⟨each_update inv.each ?_ others, calm, inv.draining⟩
        intro s _ own
        refine ⟨?_, own.bounded, own.ordered, own.addressed, own.numbered,
          fun reported => (own.notified reported).imp_right (kept _)⟩
        have before := own.pending
        have one := called s
        simp only [List.length_append, List.length_singleton]
        omega
  · exact inv

theorem InOrder.settles (inv : InOrder config system) (subscriber promise : Nat)
    (accepted : Bool) : InOrder config (system.settles subscriber promise accepted) := by
  unfold ActivitySystem.settles
  split
  next record idle found =>
    obtain ⟨s, known, promised⟩ := Option.bind_eq_some_iff.mp found
    have erased : (s.promises.eraseIdx promise).length + 1 = s.promises.length := by
      have inside := (List.getElem?_eq_some_iff.mp promised).1
      rw [List.length_eraseIdx_of_lt inside]
      omega
    have own (t : Subscription δ) (same : system.channel.subscribers[subscriber]? = some t) :
        calls subscriber system.stack + t.promises.length =
          calls subscriber system.stack + (t.promises.eraseIdx promise).length + 1 := by
      obtain rfl : s = t := Option.some.inj (known.symm.trans same)
      omega
    dsimp only
    cases accepted with
    | true =>
        rw [if_pos rfl, ToolActivityChannel.accept, update_update]
        exact ⟨each_update inv.each (fun t same kept =>
          kept.settled rfl (own t same) rfl rfl rfl fun h => h) (fun _ _ _ kept => kept),
          inv.calm, inv.draining⟩
    | false =>
        rw [if_neg (by simp), ToolActivityChannel.refuse, update_update]
        exact ⟨each_update inv.each (fun t same kept =>
          kept.settled rfl (own t same) rfl rfl rfl fun h => h) (fun _ _ _ kept => kept),
          inv.calm, inv.draining⟩
  · exact inv

/-! ## Runs -/

theorem inOrder_initial : InOrder config (.initial : ActivitySystem δ) where
  each subscriber s found := by simp [ActivitySystem.initial] at found
  calm := ⟨by simp [ActivitySystem.initial], .closeless (by simp [Closeless, ActivitySystem.initial]),
    by simp [Closeless, ActivitySystem.initial]⟩
  draining := by simp [ActivitySystem.initial]

theorem inOrder_next {event : ActivityEvent δ} (inv : InOrder config system)
    (framed : Framed system.channel system.stack)
    (unhurried : Unhurried config system event) : InOrder config (system.next config event) := by
  cases event with
  | publish publication =>
      simp only [ActivitySystem.next]
      split_ifs
      · exact inv.publish publication
      · exact inv
  | subscribe replay =>
      simp only [ActivitySystem.next]
      split_ifs
      · exact inv.subscribe framed replay
      · exact inv
  | unsubscribe subscriber =>
      simp only [ActivitySystem.next]
      split_ifs
      · exact inv.unsubscribe subscriber
      · exact inv
  | close lingering =>
      simp only [ActivitySystem.next]
      split_ifs
      · exact inv.close lingering
      · exact inv
  | drained =>
      simp only [ActivitySystem.next]
      split_ifs with waits
      · simp only [Bool.and_eq_true, List.isEmpty_iff] at waits
        exact inv.drained waits.1 waits.2
      · exact inv
  | advance => exact inv.advance framed unhurried
  | returns outcome => exact inv.returns outcome
  | settles subscriber promise accepted => exact inv.settles subscriber promise accepted

end Steps

section Scripts

/-- One delivery may be pending, and every record fits. -/
def narrow : ToolActivityConfig Unit := ⟨2, 1, 0, fun _ => true, Nat.le_refl 1⟩

def started : ActivityEvent Unit := .publish ⟨"started", "Tool", ()⟩

/-- A publication to one subscriber, whose consumer ends its call in the given way. -/
def published (outcome : ConsumerOutcome) : List (ActivityEvent Unit) :=
  [started, .advance, .returns outcome, .advance]

/-- The second of four publications finds the first still pending, and the third a consumer
that has recovered: the notice of what was missed comes before its record. -/
def overflowing : List (ActivityEvent Unit) :=
  [.subscribe false] ++ published .promised ++ [started, .advance, .advance, .settles 0 0 true] ++
    [started, .advance]

/-- A subscriber of two publications, of which the second stays pending. -/
def twice : List (ActivityEvent Unit) :=
  [.subscribe false] ++ published .returned ++ published .promised

end Scripts

end AdCoder.Observability
