import AdCoder.Observability.ToolActivity

/-!
# What the channel is in the middle of, in every run

The frames are about events that have their numbers and about subscribers that
were added, and what is retained for replay are events.
-/

namespace AdCoder.Observability

open Foundation

variable {δ : Type}

/-- An event that has its number. -/
def Numbered (sequence : Nat) (record : ToolActivityRecord δ) : Prop :=
  record.isEvent = true ∧ record.sequence ≤ sequence

/-- A frame is about an event that has its number, or about a subscriber that was added. -/
def Frame.Known (channel : ToolActivityChannel δ) : Frame δ → Prop
  | .publishing record _ => Numbered channel.sequence record
  | .invoking subscriber _ => subscriber < channel.subscribers.length
  | .calling subscriber _ => subscriber < channel.subscribers.length
  | _ => True

/-- What the channel is in the middle of is known, and what it retains are events. -/
structure Framed (channel : ToolActivityChannel δ) (stack : List (Frame δ)) : Prop where
  known : ∀ frame ∈ stack, frame.Known channel
  retained : ∀ record ∈ channel.retained, Numbered channel.sequence record

section Framed

variable {config : ToolActivityConfig δ} {system : ActivitySystem δ}
  {channel channel' : ToolActivityChannel δ} {stack stack' : List (Frame δ)} {frame : Frame δ}

theorem Numbered.mono {sequence sequence' : Nat} {record : ToolActivityRecord δ}
    (h : Numbered sequence record) (grown : sequence ≤ sequence') : Numbered sequence' record :=
  ⟨h.1, Nat.le_trans h.2 grown⟩

theorem Frame.Known.mono (h : frame.Known channel) (grown : channel.sequence ≤ channel'.sequence)
    (more : channel.subscribers.length ≤ channel'.subscribers.length) : frame.Known channel' := by
  cases frame with
  | publishing record _ => exact Numbered.mono h grown
  | invoking subscriber _ => exact Nat.lt_of_lt_of_le h more
  | calling subscriber _ => exact Nat.lt_of_lt_of_le h more
  | _ => trivial

/-- Numbers and subscribers are only added. -/
theorem Framed.mono (h : Framed channel stack) (grown : channel.sequence ≤ channel'.sequence)
    (more : channel.subscribers.length ≤ channel'.subscribers.length)
    (kept : channel'.retained = channel.retained) : Framed channel' stack where
  known frame member := (h.known frame member).mono grown more
  retained record member := (h.retained record (kept ▸ member)).mono grown

theorem Framed.push (h : Framed channel stack) (known : frame.Known channel) :
    Framed channel (frame :: stack) :=
  ⟨List.forall_mem_cons.mpr ⟨known, h.known⟩, h.retained⟩

theorem Framed.pop (h : Framed channel (frame :: stack)) : Framed channel stack :=
  ⟨(List.forall_mem_cons.mp h.known).2, h.retained⟩

theorem Framed.top (h : Framed channel (frame :: stack)) : frame.Known channel :=
  (List.forall_mem_cons.mp h.known).1

theorem Framed.update (h : Framed channel stack) (subscriber : Nat)
    (f : Subscription δ → Subscription δ) : Framed (channel.update subscriber f) stack :=
  h.mono (Nat.le_refl _) (by simp) rfl

theorem Framed.noteDrop (h : Framed channel stack) (count : Nat) :
    Framed (channel.noteDrop count) stack :=
  h.mono (Nat.le_refl _) (Nat.le_refl _) rfl

/-- A number is given. -/
theorem Framed.number (h : Framed channel stack) :
    Framed { channel with sequence := channel.sequence + 1 } stack :=
  h.mono (Nat.le_succ _) (Nat.le_refl _) rfl

theorem Framed.retain (h : Framed channel stack) {record : ToolActivityRecord δ}
    (event : Numbered channel.sequence record) :
    Framed (channel.retain config record) stack where
  known frame member := (h.known frame member).mono (by simp) (by simp)
  retained r member := by
    rw [retain_sequence]
    rcases mem_retain member with old | rfl
    · exact h.retained r old
    · exact event

theorem Framed.deliver (h : Framed channel stack) (subscriber : Nat)
    (record : ToolActivityRecord δ) :
    Framed (channel.deliver config subscriber record).1
      ((channel.deliver config subscriber record).2 ++ stack) := by
  cases found : channel.subscribers[subscriber]? with
  | none => rwa [deliver_none found]
  | some s =>
      have inside := (List.getElem?_eq_some_iff.mp found).1
      cases active : s.active with
      | false => rwa [deliver_inactive found active]
      | true =>
          by_cases full : config.subscriberPendingCapacity ≤ s.pending
          · rw [deliver_full found active full]
            exact (h.update ..).noteDrop 1
          by_cases missed : s.dropped = 0
          · rw [deliver_prompt found active (by omega) missed]
            exact (h.update ..).push (by simpa [Frame.Known] using inside)
          · rw [deliver_behind found active (by omega) missed]
            exact ((h.update ..).number.push (by simpa [Frame.Known] using inside)).push
              (by simpa [Frame.Known] using inside)

theorem Framed.closeOver (h : Framed system.channel stack) {cursor : Nat} {s : Subscription δ}
    (found : system.channel.subscribers[cursor]? = some s) :
    Framed (system.closeOver cursor s).1 ((system.closeOver cursor s).2 ++ stack) := by
  have inside := (List.getElem?_eq_some_iff.mp found).1
  by_cases silent : s.active = false ∨ s.dropped + s.pending = 0
  · rw [closeOver_silent silent]
    exact (h.update ..).noteDrop _
  · have active : s.active = true := by simpa using fun h => silent (.inl h)
    rw [closeOver_reports active fun none => silent (.inr none)]
    exact ((h.update ..).number.noteDrop s.pending).push (by
      simpa [Frame.Known, ToolActivityChannel.noteDrop] using inside)

theorem framed_advance (h : Framed system.channel system.stack) :
    Framed (system.advance config).channel (system.advance config).stack := by
  unfold ActivitySystem.advance
  cases top : system.stack with
  | nil => exact h
  | cons frame rest =>
      have framed : Framed system.channel (frame :: rest) := top ▸ h
      have under := framed.pop
      cases frame with
      | publishing record cursor =>
          have next : Framed system.channel (.publishing record (cursor + 1) :: rest) :=
            under.push framed.top
          dsimp only
          split
          · exact under
          split
          · exact next.deliver ..
          · exact next
      | replaying subscriber index =>
          have next : Framed system.channel (.replaying subscriber (index + 1) :: rest) :=
            under.push trivial
          dsimp only
          split
          · exact under
          · exact next.deliver ..
      | closing cursor flushed =>
          have next (at' : Nat) (done : Bool) : Framed system.channel (.closing at' done :: rest) :=
            under.push trivial
          cases flushed with
          | false =>
              dsimp only
              split
              · exact under.mono (Nat.le_refl _) (by simp) rfl
              next s found =>
                split
                · exact (next cursor true).closeOver found
                · exact next (cursor + 1) false
          | true => exact (next (cursor + 1) false).update ..
      | invoking subscriber record =>
          exact (under.update ..).push (by simpa [Frame.Known] using framed.top)
      | calling subscriber record => exact h

/-- Every step keeps the frames known. -/
theorem framed_next (h : Framed system.channel system.stack) (event : ActivityEvent δ) :
    Framed (system.next config event).channel (system.next config event).stack := by
  cases event with
  | publish publication =>
      simp only [ActivitySystem.next, ActivitySystem.publish]
      split_ifs
      · exact h
      · exact h
      · exact (h.number.retain ⟨rfl, Nat.le_refl _⟩).push ⟨rfl, by simp⟩
      · exact h.number.noteDrop 1
      · exact h
  | subscribe replay =>
      simp only [ActivitySystem.next, ActivitySystem.subscribe]
      have added : Framed { system.channel with
          subscribers := system.channel.subscribers ++ [.fresh] } system.stack :=
        h.mono (Nat.le_refl _) (by simp) rfl
      split_ifs
      · exact h
      · exact added.push trivial
      · exact added
      · exact h
  | unsubscribe subscriber =>
      simp only [ActivitySystem.next, ActivitySystem.unsubscribe]
      split_ifs
      · exact h.update ..
      · exact h
  | close lingering =>
      simp only [ActivitySystem.next, ActivitySystem.close]
      have closed : Framed { system.channel with closed := true } system.stack :=
        h.mono (Nat.le_refl _) (Nat.le_refl _) rfl
      split_ifs
      · exact h
      · exact closed
      · exact closed.push trivial
      · exact h
  | drained =>
      simp only [ActivitySystem.next]
      split_ifs
      · exact ⟨by simp [Frame.Known], h.retained⟩
      · exact h
  | advance => exact framed_advance h
  | returns outcome =>
      simp only [ActivitySystem.next, ActivitySystem.returns]
      split
      next subscriber record rest top =>
        have under : Framed system.channel rest := (top ▸ h).pop
        cases outcome with
        | returned => exact under.update ..
        | threw => exact (under.update ..).noteDrop 1
        | promised => exact under.update ..
      · exact h
  | settles subscriber promise accepted =>
      simp only [ActivitySystem.next, ActivitySystem.settles]
      split
      · have settled := h.update subscriber fun s =>
          { s with promises := s.promises.eraseIdx promise }
        cases accepted with
        | true => exact settled.update ..
        | false => exact (settled.update ..).noteDrop 1
      · exact h

theorem framed_initial : Framed (ActivitySystem.initial : ActivitySystem δ).channel
    (ActivitySystem.initial : ActivitySystem δ).stack :=
  ⟨by simp [ActivitySystem.initial], by simp [ActivitySystem.initial]⟩

end Framed

end AdCoder.Observability
