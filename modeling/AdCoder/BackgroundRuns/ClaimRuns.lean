import AdCoder.BackgroundRuns.RecordRuns

/-!
# Claims and reaps

A claim and a reap both decide on the record as it is when they write it. What
must be shown is that no other write makes a record claimable again: while it
is, every copy agrees with it, and a copy under which a promise is past its
beginning is no request any more.
-/

namespace AdCoder.BackgroundRuns

open Foundation Orchestration ProjectOperations

variable {config : BackgroundRunConfig} {now time : Nat} {record : Option PersistedEntry}
  {m : Manager} {e : Entry}

/-! ## Records that can be claimed -/

/-- A request that nobody has claimed. -/
def PersistedEntry.Claimable (record : PersistedEntry) : Prop :=
  record.lifecycle = .requested ∧ record.lease = none

/-- A write leaves no request to claim but one that was there, with the same events. -/
def Narrows (record record' : Option PersistedEntry) : Prop :=
  ∀ after ∈ record', after.Claimable →
    ∃ before ∈ record, before.Claimable ∧ before.events = after.events

/-- The copy of a request that can be claimed. -/
structure Entry.Copies (e : Entry) (record : PersistedEntry) : Prop where
  lifecycle : e.lifecycle = .requested
  lease : e.lease = none
  events : e.events = record.events
  cancelled : e.cancelled = false

/-- While the record can be claimed, the copy is that of a request. -/
def Entry.Agrees (record : Option PersistedEntry) (e : Entry) : Prop :=
  ∀ found ∈ record, found.Claimable → e.Copies found

/-- A copy between two accesses: a promise belongs to an active copy, past its beginning the
copy is no request, nor is an active copy that is cancelled. -/
structure Entry.Steady (e : Entry) : Prop where
  promised : e.progress ≠ .idle → e.active = true
  begun : e.progress = .executing ∨ e.progress = .settling → e.lifecycle ≠ .requested
  cancelled : e.active = true → e.cancelled = true → e.lifecycle ≠ .requested

/-- What a work presupposes of the copy, so that its write leaves no claimable request. -/
def Work.Closes (e : Entry) : Work → Prop
  | .create _ => False
  | .heartbeat => e.lease ≠ none
  | .stage _ | .settle | .persist => e.lifecycle ≠ .requested
  | .launch _ | .begin | .complete _ | .pause _ _ | .attention | .fail => e.active = true
  | _ => True

/-- What the next access presupposes of the copy. A reap was due when the copy was read. -/
def Point.Closes (config : BackgroundRunConfig) (time : Nat) (e : Entry) : Point → Prop
  | .reading _ => e.active = false
  | .reaping _ => e.active = false ∧
      ∃ earlier ≤ time, reapDue config earlier e.lifecycle e.lease e.events = true
  | .writing work => work.Closes e
  | _ => True

/-- A manager of a run that has been created. -/
structure Manager.Closes (config : BackgroundRunConfig) (time : Nat)
    (record : Option PersistedEntry) (m : Manager) : Prop where
  steady : ∀ e, m.entry = some e → e.Steady
  agrees : ∀ e, m.entry = some e → e.Agrees record
  point : ∀ e, m.entry = some e → m.point.Closes config time e

theorem Narrows.refl (record : Option PersistedEntry) : Narrows record record := by
  intro found held claimable
  exact ⟨found, held, claimable, rfl⟩

/-- A record that cannot be claimed agrees with every copy, and narrows every record. -/
theorem closed_record {after : PersistedEntry} (closed : ¬ after.Claimable)
    (record : Option PersistedEntry) (e : Entry) :
    e.Agrees (some after) ∧ Narrows record (some after) := by
  constructor
  · rintro _ ⟨⟩ claimable
    exact absurd claimable closed
  · rintro _ ⟨⟩ claimable
    exact absurd claimable closed

theorem Entry.Agrees.narrow {record' : Option PersistedEntry} (agrees : e.Agrees record)
    (narrows : Narrows record record') : e.Agrees record' := by
  intro after held claimable
  obtain ⟨before, was, claimed, events⟩ := narrows after held claimable
  have copies := agrees before was claimed
  exact ⟨copies.lifecycle, copies.lease, copies.events.trans events, copies.cancelled⟩

theorem Manager.closes_empty : Manager.Closes config time record {} := by
  constructor <;> rintro _ ⟨⟩

theorem Manager.Closes.of (found : m.entry = some e) (steady : e.Steady)
    (agrees : e.Agrees record) (point : m.point.Closes config time e) :
    m.Closes config time record := by
  constructor
  · intro e' h
    cases found.symm.trans h
    exact steady
  · intro e' h
    cases found.symm.trans h
    exact agrees
  · intro e' h
    cases found.symm.trans h
    exact point

/-- An entry that is not active is steady as long as it has no promise. -/
theorem Entry.steady_idle (inactive : e.active = false) (idle : e.progress = .idle) :
    e.Steady := by
  constructor
  · intro h
    exact absurd idle h
  · rintro (h | h) <;> cases idle.symm.trans h
  · intro active
    simp [inactive] at active

theorem Entry.Steady.idle (steady : e.Steady) (inactive : e.active = false) :
    e.progress = .idle := by
  by_contra h
  simp [steady.promised h] at inactive

theorem Point.Closes.later {point : Point} (closes : point.Closes config time e)
    (later : time ≤ now) : point.Closes config now e := by
  cases point with
  | idle => trivial
  | reading call => exact closes
  | reaping call =>
      obtain ⟨inactive, earlier, before, due⟩ := closes
      exact ⟨inactive, earlier, Nat.le_trans before later, due⟩
  | claiming workerId process => trivial
  | writing work => exact closes

/-- What other managers do leaves a manager as it should be. -/
theorem Manager.Closes.frame {record' : Option PersistedEntry}
    (closes : m.Closes config time record) (later : time ≤ now) (narrows : Narrows record record') : m.Closes config now record' :=
  ⟨closes.steady, fun e found => (closes.agrees e found).narrow narrows,
    fun e found => (closes.point e found).later later⟩

/-! ## Methods -/

theorem Manager.Closes.resume (steady : e.Steady) (agrees : e.Agrees record)
    (found : m.entry = some e) (call : Call) :
    (m.resume config e call).Closes config now record := by
  refine .of ((m.resume_entry e call).trans found) steady agrees ?_
  cases call with
  | observe => trivial
  | pendingWakes => trivial
  | cancel =>
      simp only [Manager.resume]
      split <;> trivial
  | claim workerId process =>
      simp only [Manager.resume]
      split <;> trivial
  | projectPause reason metrics segment =>
      simp only [Manager.resume]
      split <;> trivial
  | projectResult result =>
      simp only [Manager.resume]
      split <;> trivial

/-- The copy that is read agrees with the record, unless a cancelled copy did not. -/
theorem Entry.Agrees.ofRecord {persisted : PersistedEntry} (agrees : e.Agrees (some persisted)) :
    (e.ofRecord persisted).Agrees (some persisted) := by
  rintro _ ⟨⟩ claimable
  exact ⟨claimable.1, claimable.2, rfl, (agrees persisted rfl claimable).cancelled⟩

theorem Manager.Closes.refresh (steady : e.Steady) (agrees : e.Agrees record)
    (inactive : e.active = false) (found : m.entry = some e) (call : Call) :
    (m.refresh config now record e call).Closes config now record := by
  unfold Manager.refresh
  split
  · exact resume steady agrees found call
  · rename_i stored
    split
    · unfold Manager.unreadable
      split
      · exact resume steady agrees found _
      · exact .of found steady agrees trivial
    · rename_i persisted parsed
      obtain ⟨-, back⟩ := (stored.yields persisted).mp parsed
      subst back
      split
      · exact resume steady agrees found call
      · have copied : (e.ofRecord persisted).Steady :=
          Entry.steady_idle inactive (steady.idle inactive)
        dsimp only
        split
        · rename_i due
          exact .of rfl copied agrees.ofRecord ⟨inactive, now, Nat.le_refl _, due⟩
        · exact resume copied agrees.ofRecord rfl call

theorem Manager.closes_load : (Manager.load config now record).Closes config now record := by
  unfold Manager.load
  split
  · exact closes_empty
  · rename_i stored
    split
    · exact closes_empty
    · rename_i persisted parsed
      obtain ⟨-, back⟩ := (stored.yields persisted).mp parsed
      subst back
      have steady : (loadedEntry persisted).Steady := Entry.steady_idle rfl rfl
      have agrees : (loadedEntry persisted).Agrees (some persisted) := by
        rintro _ ⟨⟩ claimable
        exact ⟨claimable.1, claimable.2, rfl, rfl⟩
      split
      · exact closes_empty
      · split
        · rename_i due
          exact .of rfl steady agrees ⟨rfl, now, Nat.le_refl _, due⟩
        · split
          · exact .of rfl steady agrees trivial
          · exact .of rfl steady agrees trivial

/-! ## Accesses -/

/-- What was due stays due. -/
theorem reapDue_later {events : List BackgroundRunEvent} {earlier : Nat} (later : earlier ≤ now)
    (due : reapDue config earlier .requested none events = true) :
    reapDue config now .requested none events = true := by
  simp only [reapDue, claimOverdue, hasFreshLease, Option.any_none, beq_self_eq_true,
    Bool.not_false, Bool.true_and, decide_eq_true_eq] at due ⊢
  cases first : events.head? with
  | none =>
      simp only [first, Option.map_none, Option.getD_none] at due ⊢
      omega
  | some event =>
      simp only [first, Option.map_some, Option.getD_some] at due ⊢
      omega

/-- A reap that is not due any more finds a record that cannot be claimed. -/
theorem Manager.closes_reap (steady : e.Steady) (agrees : e.Agrees record) {call : Call}
    (point : Point.Closes config time e (.reaping call)) (later : time ≤ now) :
    (m.reap config now record e call).1.Closes config now (m.reap config now record e call).2 ∧
      Narrows record (m.reap config now record e call).2 := by
  obtain ⟨inactive, earlier, before, due⟩ := point
  have cancelled : Entry.Steady { e with cancelled := true } :=
    Entry.steady_idle inactive (steady.idle inactive)
  unfold Manager.reap
  dsimp only
  split
  · have none_agrees : Entry.Agrees none { e with cancelled := true } := by rintro _ ⟨⟩
    exact ⟨Closes.resume cancelled none_agrees rfl call, Narrows.refl _⟩
  · rename_i found
    split
    · have closed : ¬ (reaped config now found).Claimable := fun claimable => by
        cases claimable.1
      obtain ⟨agreed, narrows⟩ := closed_record closed (some found) { e with cancelled := true }
      exact ⟨.of rfl cancelled agreed inactive, narrows⟩
    · rename_i undue
      have claimed (claimable : found.Claimable) : False := by
        have copies := agrees found rfl claimable
        rw [copies.lifecycle, copies.lease, copies.events] at due
        rw [claimable.1, claimable.2] at undue
        exact undue (reapDue_later (Nat.le_trans before later) due)
      obtain ⟨agreed, -⟩ := closed_record claimed (some found) { e with cancelled := true }
      exact ⟨Closes.resume cancelled agreed rfl call, Narrows.refl _⟩

theorem Manager.closes_claim (steady : e.Steady) (agrees : e.Agrees record)
    (found : m.entry = some e) (workerId : String) (process : RunProcessIdentity) :
    (m.claim now record e workerId process).1.Closes config now
        (m.claim now record e workerId process).2 ∧
      Narrows record (m.claim now record e workerId process).2 := by
  unfold Manager.claim
  split
  · exact ⟨.of found steady agrees trivial, Narrows.refl _⟩
  · rename_i held
    split
    · rename_i claimable
      have copies := agrees held rfl claimable
      let leased : Entry :=
        { e with active := true, lease := some ⟨workerId, now⟩, process := some process }
      have active : leased.Steady :=
        ⟨fun _ => rfl, steady.begun,
          fun _ cancelled => by simp [leased, copies.cancelled] at cancelled⟩
      have closed : ¬ PersistedEntry.Claimable
          { held with lease := some ⟨workerId, now⟩, process := some process } :=
        fun claimable => by cases claimable.2
      obtain ⟨agreed, narrows⟩ := closed_record closed (some held) leased
      exact ⟨.of rfl active agreed rfl, narrows⟩
    · exact ⟨.of found steady agrees trivial, Narrows.refl _⟩

theorem projectPause_lifecycle (reason : Pause) (metrics : RunMetrics) (segment : List StepCost) :
    (e.projectPause config now reason metrics segment).lifecycle = .paused := rfl

theorem projectResult_lifecycle (result : RunPipelineResult) :
    (e.projectResult config now result).lifecycle = .completed := rfl

/-- A work on a copy that it suits leaves no claimable request. -/
theorem Work.Closes.run (config : BackgroundRunConfig) (now : Nat) {work : Work}
    (closes : work.Closes e) :
    (work.run config now e).lifecycle ≠ .requested ∨ (work.run config now e).lease ≠ none := by
  cases work with
  | create workerId => exact closes.elim
  | launch workerId =>
      right
      cases leased : e.lease with
      | none => simp [Work.run, Entry.launch, leased]
      | some lease => simp [Work.run, Entry.launch, leased]
  | heartbeat =>
      have leased : e.lease ≠ none := closes
      exact .inr (by simpa [Work.run, Entry.heartbeat] using leased)
  | stage step => exact .inl closes
  | settle => exact .inl closes
  | persist => exact .inl closes
  | begin => exact .inl (by simp [Work.run, Entry.begin, Entry.append])
  | complete result => exact .inl (by simp [Work.run, Entry.complete, Entry.append])
  | pause reason metrics => exact .inl (by simp [Work.run, Entry.paused, Entry.append])
  | attention => exact .inl (by simp [Work.run, Entry.attention, Entry.append])
  | fail => exact .inl (by simp [Work.run, Entry.failed, Entry.append])
  | cancel => exact .inl (by simp [Work.run, Entry.cancel, Entry.append])
  | timeout => exact .inl (by simp [Work.run, Entry.timeout, Entry.append])
  | abandon => exact .inl (by simp [Work.run, Entry.abandon, Entry.append])
  | failLaunch => exact .inl (by simp [Work.run, Entry.failLaunch, Entry.append])
  | projectPause reason metrics segment =>
      exact .inl (by simp [Work.run, projectPause_lifecycle])
  | projectResult result =>
      exact .inl (by simp [Work.run, projectResult_lifecycle])

theorem Entry.steady_ended {e' : Entry} (promised : e'.progress ≠ .idle → e'.active = true)
    (ended : e'.lifecycle ≠ .requested) : e'.Steady :=
  ⟨promised, fun _ => ended, fun _ _ => ended⟩

theorem Entry.Steady.run (steady : e.Steady) {work : Work} (closes : work.Closes e) :
    (work.run config now e).Steady := by
  cases work with
  | create workerId => exact closes.elim
  | launch workerId =>
      refine ⟨fun _ => closes, ?_, steady.cancelled⟩
      rintro (h | h) <;> cases h
  | begin => exact steady_ended (fun _ => closes) (by simp [Work.run, Entry.begin, Entry.append])
  | stage step => exact ⟨steady.promised, steady.begun, steady.cancelled⟩
  | complete result =>
      exact steady_ended (fun _ => closes) (by simp [Work.run, Entry.complete, Entry.append])
  | pause reason metrics =>
      exact steady_ended (fun _ => closes) (by simp [Work.run, Entry.paused, Entry.append])
  | attention =>
      exact steady_ended (fun _ => closes) (by simp [Work.run, Entry.attention, Entry.append])
  | fail => exact steady_ended (fun _ => closes) (by simp [Work.run, Entry.failed, Entry.append])
  | settle => exact steady_idle rfl rfl
  | heartbeat => exact ⟨steady.promised, steady.begun, steady.cancelled⟩
  | cancel =>
      exact steady_ended steady.promised (by simp [Work.run, Entry.cancel, Entry.append])
  | timeout =>
      exact steady_ended steady.promised (by simp [Work.run, Entry.timeout, Entry.append])
  | abandon =>
      exact steady_ended steady.promised (by simp [Work.run, Entry.abandon, Entry.append])
  | failLaunch =>
      exact steady_ended steady.promised (by simp [Work.run, Entry.failLaunch, Entry.append])
  | persist => exact steady
  | projectPause reason metrics segment =>
      obtain ⟨active, progress⟩ : _ ∧ _ := projectPause_frame reason metrics segment e
      refine steady_ended (fun under => ?_) (by simp [Work.run, projectPause_lifecycle])
      exact active.trans (steady.promised (progress ▸ under))
  | projectResult result =>
      obtain ⟨active, progress⟩ : _ ∧ _ := projectResult_frame result e
      refine steady_ended (fun under => ?_) (by simp [Work.run, projectResult_lifecycle])
      exact active.trans (steady.promised (progress ▸ under))

theorem Manager.closes_write (steady : e.Steady) {work : Work} (closes : work.Closes e) :
    (m.write config now record e work).1.Closes config now (m.write config now record e work).2 ∧
      Narrows record (m.write config now record e work).2 := by
  have closed : ¬ ((work.run config now e).persisted config record).Claimable := by
    rintro ⟨requested, unclaimed⟩
    rcases closes.run config now with other | leased
    · exact other requested
    · exact leased unclaimed
  obtain ⟨agreed, narrows⟩ := closed_record closed record (work.run config now e)
  refine ⟨.of rfl (steady.run closes) agreed ?_, narrows⟩
  show Point.Closes config now _ work.next
  cases work with
  | create workerId => exact closes.elim
  | failLaunch =>
      show Work.Closes _ .persist
      simp [Work.Closes, Work.run, Entry.failLaunch, Entry.append]
  | _ => trivial

theorem Manager.Closes.access (closes : m.Closes config time record) (found : m.entry = some e)
    (later : time ≤ now) :
    (m.access config now record e).1.Closes config now (m.access config now record e).2 ∧
      Narrows record (m.access config now record e).2 := by
  have steady := closes.steady e found
  have agrees := closes.agrees e found
  have point := closes.point e found
  unfold Manager.access
  split
  · exact ⟨closes.frame later (Narrows.refl _), Narrows.refl _⟩
  · rename_i call next
    rw [next] at point
    exact ⟨refresh steady agrees point found call, Narrows.refl _⟩
  · rename_i call next
    rw [next] at point
    exact closes_reap steady agrees point later
  · exact closes_claim steady agrees found _ _
  · rename_i work next
    rw [next] at point
    exact closes_write steady point

/-! ## Steps -/

theorem Manager.Closes.promise (closes : m.Closes config time record) (found : m.entry = some e)
    (idle : m.point = .idle) {work : Work} (under : e.progress ≠ .idle)
    (due : work.promisedAt = e.progress) : (m.promise e work).Closes config time record := by
  have steady := closes.steady e found
  have agrees := closes.agrees e found
  have active := steady.promised under
  unfold Manager.promise
  split
  · refine .of found steady agrees ?_
    show work.Closes e
    cases work with
    | begin => exact active
    | stage step => exact steady.begun (.inl due.symm)
    | complete result => exact active
    | pause reason metrics => exact active
    | attention => exact active
    | fail => exact active
    | _ => exact absurd due.symm under
  · rename_i cancelled
    split
    · exact closes
    · have ended := steady.cancelled active (by simpa using cancelled)
      have copied : Entry.Agrees record { e with progress := .settling } :=
        fun found held claimable => by
          have copies := agrees found held claimable
          exact ⟨copies.lifecycle, copies.lease, copies.events, copies.cancelled⟩
      refine .of rfl (Entry.steady_ended (fun _ => active) ended) copied ?_
      rw [show Manager.point _ = .idle from idle]
      trivial

theorem Manager.Closes.between (closes : m.Closes config time record) (found : m.entry = some e)
    (idle : m.point = .idle) (action : Action) :
    (m.between config e action).Closes config time record := by
  have steady := closes.steady e found
  have agrees := closes.agrees e found
  cases action with
  | call method =>
      simp only [Manager.between, Manager.call]
      split
      · exact resume steady agrees found method
      · rename_i inactive
        exact .of found steady agrees (by simpa [Point.Closes] using inactive)
  | promise work =>
      simp only [Manager.between]
      split
      · rename_i due
        exact closes.promise found idle due.1 due.2
      · exact closes
  | settle =>
      simp only [Manager.between]
      split
      · rename_i settling
        exact .of found steady agrees (steady.begun (.inr settling))
      · exact closes
  | heartbeat =>
      simp only [Manager.between]
      split
      · rename_i due
        exact .of found steady agrees due.2.2
      · exact closes
  | timeout =>
      simp only [Manager.between]
      split
      · exact .of found steady agrees trivial
      · exact closes
  | launchFails =>
      simp only [Manager.between]
      split
      · exact .of found steady agrees trivial
      · exact closes
  | launched => exact ⟨closes.steady, closes.agrees, closes.point⟩
  | construct => exact closes
  | access => exact closes
  | mark marks => exact closes

theorem Manager.closes_mark (closes : m.Closes config time record) (idle : m.point = .idle)
    (marks : Marks) :
    (m.mark now record marks).1.Closes config time (m.mark now record marks).2 ∧
      Narrows record (m.mark now record marks).2 := by
  have narrows : Narrows record (m.mark now record marks).2 := by
    intro after held claimable
    obtain ⟨before, was, rfl⟩ := Option.map_eq_some_iff.mp held
    exact ⟨before, was, claimable, rfl⟩
  refine ⟨⟨?_, ?_, ?_⟩, narrows⟩
  · intro e' h
    obtain ⟨e, found, rfl⟩ := Option.map_eq_some_iff.mp h
    have steady := closes.steady e found
    exact ⟨steady.promised, steady.begun, steady.cancelled⟩
  · intro e' h after held claimable
    obtain ⟨e, found, rfl⟩ := Option.map_eq_some_iff.mp h
    have copies := (closes.agrees e found).narrow narrows after held claimable
    exact ⟨copies.lifecycle, copies.lease, copies.events, copies.cancelled⟩
  · intro e' _
    simp only [Manager.mark, idle]
    trivial

/-- What a manager does leaves it as it should be, and narrows the record. -/
theorem Manager.Closes.act (closes : m.Closes config time record) (later : time ≤ now)
    (action : Action) :
    (m.act config now record action).1.Closes config now (m.act config now record action).2 ∧
      Narrows record (m.act config now record action).2 := by
  have here := closes.frame later (Narrows.refl record)
  rcases m.act_cases config now record action with
    ⟨-, h⟩ | ⟨marks, -, idle, h⟩ | ⟨e, -, found, h⟩ | ⟨e, found, idle, h⟩ | h
  · rw [h]
    exact ⟨closes_load, Narrows.refl _⟩
  · rw [h]
    exact closes_mark here idle marks
  · rw [h]
    exact closes.access found later
  · rw [h]
    exact ⟨here.between found idle action, Narrows.refl _⟩
  · rw [h]
    exact ⟨here, Narrows.refl _⟩

namespace World

def Closes (config : BackgroundRunConfig) (time : Nat) (world : World) : Prop :=
  ∀ p, (world.managers p).Closes config time world.record

/-- Nobody but manager `0` knows the run, which it is about to record. -/
structure Creating (workerId : Option String) (world : World) : Prop where
  record : world.record = none
  entry : (world.managers 0).entry = some (createdEntry workerId.isSome)
  point : (world.managers 0).point = .writing (.create workerId)
  others : ∀ p ≠ 0, (world.managers p).entry = none

theorem creating_initial (workerId : Option String) :
    Creating workerId (initial workerId) where
  record := rfl
  entry := rfl
  point := rfl
  others p other := by simp [initial, other]

theorem closes_found (record : PersistedEntry) :
    Closes config time ⟨some record, fun _ => {}⟩ := fun _ => Manager.closes_empty

theorem Closes.apply {world : World} (closes : world.Closes config time) {event : Event}
    (later : time ≤ event.now) :
    (world.apply config event).Closes config event.now ∧
      Narrows world.record (world.apply config event).record := by
  obtain ⟨here, narrows⟩ := (closes event.manager).act later event.action
  refine ⟨fun p => ?_, narrows⟩
  by_cases same : p = event.manager
  · subst same
    simpa [World.apply] using here
  · simpa [World.apply, same] using (closes p).frame later narrows

/-- A manager without a copy gets none while there is no record. -/
theorem act_without (config : BackgroundRunConfig) (now : Nat) {m : Manager}
    (absent : m.entry = none) (action : Action) :
    (m.act config now none action).1.entry = none ∧ (m.act config now none action).2 = none := by
  rcases m.act_cases config now none action with
    ⟨-, h⟩ | ⟨marks, -, -, h⟩ | ⟨e, -, found, -⟩ | ⟨e, found, -, -⟩ | h
  · rw [h]
    exact ⟨rfl, rfl⟩
  · rw [h]
    simp [Manager.mark, absent]
  · simp [absent] at found
  · simp [absent] at found
  · rw [h]
    exact ⟨absent, rfl⟩

/-- The creator's first write leaves a copy of the request that it wrote. -/
theorem Creating.created {workerId : Option String} {world : World}
    (creating : world.Creating workerId) (now : Nat) :
    ((world.managers 0).access config now none (createdEntry workerId.isSome)).1.Closes config now
      ((world.managers 0).access config now none (createdEntry workerId.isSome)).2 := by
  simp only [Manager.access, creating.point]
  have agrees : ((Work.create workerId).run config now (createdEntry workerId.isSome)).Agrees
      (some (((Work.create workerId).run config now
        (createdEntry workerId.isSome)).persisted config none)) := by
    rintro _ ⟨⟩ -
    exact ⟨rfl, rfl, rfl, rfl⟩
  have steady : ((Work.create workerId).run config now
      (createdEntry workerId.isSome)).Steady := by
    constructor
    · exact fun h => absurd rfl h
    · rintro (h | h) <;> cases h
    · intro _ cancelled
      cases cancelled
  refine .of rfl steady agrees ?_
  cases workerId with
  | none => trivial
  | some workerId => rfl

theorem Creating.apply (config : BackgroundRunConfig) {workerId : Option String} {world : World}
    (creating : world.Creating workerId) (event : Event) :
    (world.apply config event).Creating workerId ∨
      (world.apply config event).Closes config event.now := by
  by_cases owner : event.manager = 0
  · have closes (m' : Manager) (record' : Option PersistedEntry)
        (acts : (world.managers 0).act config event.now none event.action = (m', record'))
        (closes : m'.Closes config event.now record') :
        (world.apply config event).Closes config event.now := by
      intro p
      by_cases other : p = 0
      · simpa [World.apply, owner, creating.record, acts, other] using closes
      · have absent := creating.others p other
        have kept : (world.apply config event).managers p = world.managers p := by
          simp [World.apply, owner, other]
        rw [kept]
        constructor <;> simp [absent]
    rcases (world.managers 0).act_cases config event.now none event.action with
      ⟨-, h⟩ | ⟨marks, -, idle, -⟩ | ⟨e, -, found, h⟩ | ⟨e, -, idle, -⟩ | h
    · exact .inr (closes _ _ h Manager.closes_load)
    · simp [creating.point] at idle
    · obtain rfl : createdEntry workerId.isSome = e := by simpa [creating.entry] using found
      exact .inr (closes _ _ h (creating.created event.now))
    · simp [creating.point] at idle
    · left
      have same : world.apply config event = world := by
        rw [World.apply, owner, creating.record, h]
        simp [← creating.record]
      rwa [same]
  · left
    obtain ⟨absent, none⟩ := act_without config event.now (creating.others _ owner) event.action
    have kept : (world.apply config event).managers 0 = world.managers 0 := by
      simp [World.apply, Ne.symm owner]
    refine ⟨by simpa [World.apply, creating.record] using none, ?_, ?_, fun p other => ?_⟩
    · rw [kept]
      exact creating.entry
    · rw [kept]
      exact creating.point
    · by_cases here : p = event.manager
      · subst here
        simpa [World.apply, creating.record] using absent
      · simpa [World.apply, here] using creating.others p other

/-! ## Claims and reaps in a run -/

/-- The manager's claim succeeds: it goes on to launch the run. -/
def claims (config : BackgroundRunConfig) (world : World) (event : Event) : Bool :=
  match (world.managers event.manager).point,
    ((world.apply config event).managers event.manager).point with
  | .claiming _ _, .writing (.launch _) => true
  | _, _ => false

/-- The manager reaps the record: it goes on to read what it wrote. -/
def reaps (config : BackgroundRunConfig) (world : World) (event : Event) : Bool :=
  match (world.managers event.manager).point,
    ((world.apply config event).managers event.manager).point with
  | .reaping _, .reading _ => true
  | _, _ => false

/-- How many claims succeed. -/
def claimCount (config : BackgroundRunConfig) : World → List Event → Nat
  | _, [] => 0
  | world, event :: rest =>
      (if world.claims config event then 1 else 0) +
        claimCount config (world.apply config event) rest

/-- The record can be claimed. -/
def Claimable (world : World) : Prop := ∃ found ∈ world.record, found.Claimable

/-- A run is not created yet, or it has been. -/
def Open (config : BackgroundRunConfig) (time : Nat) (world : World) : Prop :=
  (∃ workerId, world.Creating workerId) ∨ world.Closes config time

/-- What a manager does in the middle of a method. -/
theorem act_busy (config : BackgroundRunConfig) (now : Nat) (record : Option PersistedEntry)
    {m : Manager} (busy : m.point ≠ .idle) (action : Action) :
    m.act config now record action = (Manager.load config now record, record) ∨
    (∃ e, m.entry = some e ∧ m.act config now record action = m.access config now record e) ∨
    m.act config now record action = (m, record) := by
  rcases m.act_cases config now record action with
    ⟨-, h⟩ | ⟨marks, -, idle, -⟩ | ⟨e, -, found, h⟩ | ⟨e, -, idle, -⟩ | h
  · exact .inl h
  · exact absurd idle busy
  · exact .inr (.inl ⟨e, found, h⟩)
  · exact absurd idle busy
  · exact .inr (.inr h)

/-- A new process neither launches nor reads the record again. -/
theorem load_point (config : BackgroundRunConfig) (now : Nat) (record : Option PersistedEntry) :
    (Manager.load config now record).point = .idle ∨
    (Manager.load config now record).point = .reaping .observe ∨
    (Manager.load config now record).point = .writing .abandon := by
  unfold Manager.load
  split
  · exact .inl rfl
  · split
    · exact .inl rfl
    · split
      · exact .inl rfl
      · split
        · exact .inr (.inl rfl)
        · split
          · exact .inr (.inr rfl)
          · exact .inl rfl

/-- A claim succeeds on a record that can be claimed, and leaves one that cannot. -/
theorem claimable_of_claims {world : World} {event : Event}
    (claims : world.claims config event = true) :
    world.Claimable ∧ ¬ (world.apply config event).Claimable := by
  unfold World.claims at claims
  split at claims
  · rename_i workerId process _ before after
    simp only [World.apply, Function.update_self] at after
    have busy : (world.managers event.manager).point ≠ .idle := by simp [before]
    rcases act_busy config event.now world.record busy event.action with h | ⟨e, found, h⟩ | h
    · rw [h] at after
      rcases load_point config event.now world.record with point | point | point <;>
        simp [point] at after
    · simp only [Manager.access, before] at h
      unfold Manager.claim at h
      split at h
      · simp [h] at after
      · rename_i held _
        split at h
        · rename_i claimable
          refine ⟨⟨held, ‹_›, claimable⟩, ?_⟩
          rintro ⟨found, stored, -, unclaimed⟩
          simp only [World.apply, h, Option.mem_def, Option.some.injEq] at stored
          subst stored
          cases unclaimed
        · simp [h] at after
    · simp [h, before] at after
  · cases claims

/-- A method that goes on does not read the record again. -/
theorem resume_point (m : Manager) (e : Entry) (call again : Call) :
    (m.resume config e call).point ≠ .reading again := by
  cases call with
  | observe => simp [Manager.resume]
  | pendingWakes => simp [Manager.resume]
  | cancel => simp only [Manager.resume]; split <;> simp
  | claim workerId process => simp only [Manager.resume]; split <;> simp
  | projectPause reason metrics segment => simp only [Manager.resume]; split <;> simp
  | projectResult result => simp only [Manager.resume]; split <;> simp

/-- A reap finds no fresh lease, and leaves a record that cannot be claimed. -/
theorem stale_of_reaps {world : World} {event : Event}
    (reaps : world.reaps config event = true) :
    (∃ found ∈ world.record, hasFreshLease config event.now found.lease = false) ∧
      ¬ (world.apply config event).Claimable := by
  unfold World.reaps at reaps
  split at reaps
  · rename_i call _ before after
    simp only [World.apply, Function.update_self] at after
    have busy : (world.managers event.manager).point ≠ .idle := by simp [before]
    rcases act_busy config event.now world.record busy event.action with h | ⟨e, found, h⟩ | h
    · rw [h] at after
      rcases load_point config event.now world.record with point | point | point <;>
        simp [point] at after
    · simp only [Manager.access, before] at h
      unfold Manager.reap at h
      dsimp only at h
      split at h
      · rw [h] at after
        exact absurd after (resume_point _ _ _ _)
      · rename_i held _
        split at h
        · rename_i due
          simp only [reapDue, Bool.and_eq_true, Bool.not_eq_true'] at due
          refine ⟨⟨held, ‹_›, due.1.2⟩, ?_⟩
          rintro ⟨found, stored, requested, -⟩
          simp only [World.apply, h, Option.mem_def, Option.some.injEq] at stored
          subst stored
          cases requested
        · rw [h] at after
          exact absurd after (resume_point _ _ _ _)
    · simp [h, before] at after
  · cases reaps

theorem Open.apply {world : World} (ready : world.Open config time) {event : Event}
    (later : time ≤ event.now) : (world.apply config event).Open config event.now := by
  rcases ready with ⟨workerId, creating⟩ | closes
  · rcases creating.apply config event with still | closes
    · exact .inl ⟨workerId, still⟩
    · exact .inr closes
  · exact .inr (closes.apply later).1

theorem Open.recorded {world : World} (ready : world.Open config time) {found : PersistedEntry}
    (held : found ∈ world.record) : world.Closes config time := by
  rcases ready with ⟨workerId, creating⟩ | closes
  · simp [creating.record] at held
  · exact closes

/-- Once a record cannot be claimed, no claim succeeds. -/
theorem Closes.claimCount {world : World} {events : List Event}
    (closes : world.Closes config time) (closed : ¬ world.Claimable)
    (later : ∀ event ∈ events, time ≤ event.now)
    (clock : events.Pairwise fun a b => a.now ≤ b.now) : claimCount config world events = 0 := by
  induction events generalizing world time with
  | nil => rfl
  | cons event rest ih =>
      obtain ⟨next, tail⟩ := List.pairwise_cons.mp clock
      have missed : world.claims config event = false := by
        by_contra claims
        exact closed (claimable_of_claims (by simpa using claims)).1
      obtain ⟨after, narrows⟩ := closes.apply (later event List.mem_cons_self)
      have still : ¬ (world.apply config event).Claimable := by
        rintro ⟨found, held, claimable⟩
        obtain ⟨before, was, claimed, -⟩ := narrows found held claimable
        exact closed ⟨before, was, claimed⟩
      simp only [World.claimCount, missed, Bool.false_eq_true, if_false]
      rw [ih after still next tail]

/-- At most one claim succeeds. -/
theorem Open.claimCount_le {world : World} {events : List Event}
    (ready : world.Open config time) (later : ∀ event ∈ events, time ≤ event.now)
    (clock : events.Pairwise fun a b => a.now ≤ b.now) : claimCount config world events ≤ 1 := by
  induction events generalizing world time with
  | nil => exact Nat.zero_le 1
  | cons event rest ih =>
      obtain ⟨next, tail⟩ := List.pairwise_cons.mp clock
      have first := later event List.mem_cons_self
      cases claims : world.claims config event with
      | false =>
          simp only [World.claimCount, claims, Bool.false_eq_true, if_false, Nat.zero_add]
          exact ih (ready.apply first) next tail
      | true =>
          obtain ⟨⟨found, held, -⟩, closed⟩ := claimable_of_claims claims
          have closes := ((ready.recorded held).apply first).1
          simp only [World.claimCount, claims, if_true, closes.claimCount closed next tail]
          exact Nat.le_refl 1

theorem Open.later {world : World} (ready : world.Open config time) (later : time ≤ now) :
    world.Open config now := by
  rcases ready with creating | closes
  · exact .inl creating
  · exact .inr fun p => (closes p).frame later (Narrows.refl _)

theorem Open.run {world : World} {events : List Event} {time last : Nat}
    (ready : world.Open config time) (later : ∀ event ∈ events, time ≤ event.now)
    (clock : events.Pairwise fun a b => a.now ≤ b.now) (started : time ≤ last)
    (ended : ∀ event ∈ events, event.now ≤ last) :
    (events.foldl (World.apply config) world).Open config last := by
  induction events generalizing world time with
  | nil => exact ready.later started
  | cons event rest ih =>
      obtain ⟨next, tail⟩ := List.pairwise_cons.mp clock
      exact ih (ready.apply (later event List.mem_cons_self)) next tail
        (ended event List.mem_cons_self) fun other mem => ended other (List.mem_cons_of_mem _ mem)

/-- A reap finds no fresh lease, and no claim succeeds after it. -/
theorem Open.reaped {world : World} {event : Event} {events : List Event}
    (ready : world.Open config time) (later : time ≤ event.now)
    (next : ∀ other ∈ events, event.now ≤ other.now)
    (clock : events.Pairwise fun a b => a.now ≤ b.now) (reaps : world.reaps config event = true) :
    (∃ found ∈ world.record, hasFreshLease config event.now found.lease = false) ∧
      claimCount config (world.apply config event) events = 0 := by
  obtain ⟨⟨found, held, stale⟩, closed⟩ := stale_of_reaps reaps
  exact ⟨⟨found, held, stale⟩, ((ready.recorded held).apply later).1.claimCount closed next clock⟩

/-- The run is about to be created, or nobody has read its record yet. -/
def Begins (world : World) : Prop :=
  (∃ workerId, world = initial workerId) ∨ ∃ record, world = ⟨some record, fun _ => {}⟩

theorem Begins.open (config : BackgroundRunConfig) {world : World} (begins : world.Begins) :
    world.Open config 0 := by
  rcases begins with ⟨workerId, rfl⟩ | ⟨record, rfl⟩
  · exact .inl ⟨workerId, creating_initial workerId⟩
  · exact .inr (closes_found record)

/-- At most one claim of a run succeeds; a record with a fresh lease is not reaped, and a
record that was reaped is never claimed. -/
theorem claim_excludes_reap (config : BackgroundRunConfig) {world : World}
    (begins : world.Begins) {events : List Event}
    (clock : events.Pairwise fun a b => a.now ≤ b.now) :
    claimCount config world events ≤ 1 ∧
    ∀ before event after, events = before ++ event :: after →
      (before.foldl (apply config) world).reaps config event = true →
        (∃ found ∈ (before.foldl (apply config) world).record,
          hasFreshLease config event.now found.lease = false) ∧
        claimCount config ((before ++ [event]).foldl (apply config) world) after = 0 := by
  refine ⟨(begins.open config).claimCount_le (fun _ _ => Nat.zero_le _) clock, ?_⟩
  rintro before event after rfl reaps
  obtain ⟨first, rest, across⟩ := List.pairwise_append.mp clock
  obtain ⟨next, tail⟩ := List.pairwise_cons.mp rest
  have ready : (before.foldl (World.apply config) world).Open config event.now :=
    (begins.open config).run (fun _ _ => Nat.zero_le _) first (Nat.zero_le _)
      fun other mem => across other mem event List.mem_cons_self
  rw [List.foldl_append]
  exact ready.reaped (Nat.le_refl _) next tail reaps

/-- The worker that starts the run is the only one to claim it. -/
theorem claim_excludes_reap_started :
    claimCount plainConfig (initial none) startedScript ≤ 1 :=
  (claim_excludes_reap plainConfig (.inl ⟨none, rfl⟩) (by decide)).1

/-- A process that starts after the claim window reaps the request. -/
example :
    (([⟨0, 1, .access⟩, ⟨1, 20000, .construct⟩] : List Event).foldl (World.apply plainConfig)
      (initial none)).reaps plainConfig ⟨1, 20000, .access⟩ = true := by
  decide +kernel

end World

end AdCoder.BackgroundRuns
