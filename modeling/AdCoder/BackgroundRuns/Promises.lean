import AdCoder.BackgroundRuns.Processes

/-!
# Promises of a run

A promise that is under way belongs to an active entry, and it writes only into
a copy that is not terminal: whoever ends the run cancels the promise. This
holds as long as no launch fails whose promise the same manager has.
-/

namespace AdCoder.BackgroundRuns

open Foundation Orchestration ProjectOperations

/-! ## Kinds of work -/

namespace Work

/-- The works that leave the lifecycle and the outcome as they are. -/
def keeps : Work → Bool
  | stage _ | settle | heartbeat | persist => true
  | _ => false

def launchFailed : Work → Bool
  | failLaunch => true
  | _ => false

/-- The works of a manager that launches the run itself. -/
def launches : Work → Bool
  | create (some _) | launch _ => true
  | _ => false

/-- The works of a foreground resume, which reopens the run. -/
def projects : Work → Bool
  | projectPause _ _ _ | projectResult _ => true
  | _ => false

/-- The works that are done only on a copy that is not terminal. -/
def opens (work : Work) : Bool := !work.keeps && !work.launchFailed && !work.projects

end Work

/-! ## What the managers keep -/

/-- A promise that is not over belongs to an active entry, and to a terminal one only if
the run was cancelled. -/
structure Entry.Sound (e : Entry) : Prop where
  active : e.progress ≠ .idle → e.active = true
  cancelled : e.lifecycle.isTerminal = true → e.progress = .scheduled ∨ e.progress = .executing →
    e.cancelled = true

/-- What a work presupposes of the copy. -/
structure Work.Suits (e : Entry) (work : Work) : Prop where
  opened : work.opens = true → e.lifecycle.isTerminal = false
  promised : work.promisedAt ≠ .idle → e.progress ≠ .idle
  launched : work.launches = true → e.active = true
  projected : work.projects = true → e.active = false

/-- What the next access presupposes of the copy. -/
def Point.Suits (e : Entry) : Point → Prop
  | idle => True
  | reading _ | reaping _ => e.active = false
  | claiming _ _ => e.lifecycle = .requested
  | writing work => work.Suits e

theorem Work.Suits.of_running {work : Work} {e : Entry} (running : e.lifecycle.isTerminal = false)
    (unpromised : work.promisedAt = .idle) (unlaunched : work.launches = false)
    (other : work.projects = false) : work.Suits e :=
  ⟨fun _ => running, fun h => absurd unpromised h, by simp [unlaunched], by simp [other]⟩

/-- A work that changes neither the lifecycle nor the promise suits every copy. -/
theorem Work.Suits.of_closed {work : Work} {e : Entry} (closed : work.opens = false)
    (unpromised : work.promisedAt = .idle) (unlaunched : work.launches = false)
    (other : work.projects = false) : work.Suits e :=
  ⟨by simp [closed], fun h => absurd unpromised h, by simp [unlaunched], by simp [other]⟩

theorem Work.Suits.of_inactive {work : Work} {e : Entry} (inactive : e.active = false)
    (closed : work.opens = false) (unpromised : work.promisedAt = .idle)
    (unlaunched : work.launches = false) : work.Suits e :=
  ⟨by simp [closed], fun h => absurd unpromised h, by simp [unlaunched], fun _ => inactive⟩

structure Manager.Sound (m : Manager) : Prop where
  entry : ∀ e, m.entry = some e → e.Sound
  point : ∀ e, m.entry = some e → m.point.Suits e

variable {config : BackgroundRunConfig} {now : Nat} {record : Option PersistedEntry}
  {m : Manager} {e : Entry}

theorem Manager.sound_empty : Manager.Sound {} :=
  ⟨fun _ h => by simp at h, fun _ h => by simp at h⟩

theorem Manager.Sound.of (found : m.entry = some e) (sound : e.Sound)
    (suits : m.point.Suits e) : m.Sound := by
  constructor
  · intro e' h
    cases found.symm.trans h
    exact sound
  · intro e' h
    cases found.symm.trans h
    exact suits

/-- An entry that is not active has no promise. -/
theorem Entry.Sound.idle (sound : e.Sound) (inactive : e.active = false) : e.progress = .idle := by
  by_contra h
  simp [sound.active h] at inactive

theorem Manager.Sound.resume (sound : e.Sound) (found : m.entry = some e) (call : Call) :
    (m.resume config e call).Sound := by
  cases call with
  | observe => exact .of found sound trivial
  | pendingWakes => exact .of found sound trivial
  | cancel =>
      refine .of found sound ?_
      by_cases terminal : e.lifecycle.isTerminal = true
      · simp [Manager.resume, terminal, Point.Suits]
      · have running : e.lifecycle.isTerminal = false := by simpa using terminal
        simp only [Manager.resume, running, Bool.false_eq_true, reduceIte]
        exact .of_running running (by decide) (by decide) rfl
  | claim workerId process =>
      refine .of found sound ?_
      by_cases unclaimed : e.lifecycle = .requested ∧ e.lease = none
      · simp [Manager.resume, unclaimed, Point.Suits]
      · simp [Manager.resume, unclaimed, Point.Suits]
  | projectPause reason metrics segment =>
      refine .of found sound ?_
      by_cases active : e.active = true
      · simp [Manager.resume, active, Point.Suits]
      · have inactive : e.active = false := by simpa using active
        simp only [Manager.resume, inactive, Bool.false_eq_true, reduceIte]
        exact .of_inactive inactive rfl rfl rfl
  | projectResult result =>
      refine .of found sound ?_
      by_cases active : e.active = true
      · simp [Manager.resume, active, Point.Suits]
      · have inactive : e.active = false := by simpa using active
        simp only [Manager.resume, inactive, Bool.false_eq_true, reduceIte]
        exact .of_inactive inactive rfl rfl rfl

/-- What a record says of itself replaces the copy of a run that is not active. -/
theorem Entry.Sound.ofRecord (sound : e.Sound) (inactive : e.active = false)
    (persisted : PersistedEntry) : (e.ofRecord persisted).Sound := by
  have idle := sound.idle inactive
  constructor
  · intro h
    exact absurd idle h
  · rintro - (h | h)
    · exact absurd (idle.symm.trans h) (by decide)
    · exact absurd (idle.symm.trans h) (by decide)

theorem Manager.Sound.refresh (sound : e.Sound) (inactive : e.active = false)
    (found : m.entry = some e) (call : Call) : (m.refresh config now record e call).Sound := by
  unfold Manager.refresh
  split
  · exact resume sound found call
  · split
    · unfold Manager.unreadable
      split
      · exact resume sound found _
      · exact .of found sound trivial
    · rename_i persisted _
      split
      · exact resume sound found call
      · have copied := sound.ofRecord inactive persisted
        dsimp only
        split
        · exact .of rfl copied inactive
        · exact resume copied rfl call

theorem loadedEntry_sound (persisted : PersistedEntry) : (loadedEntry persisted).Sound := by
  constructor
  · intro h
    exact absurd rfl h
  · rintro - (h | h) <;> cases h

theorem Manager.sound_load : (Manager.load config now record).Sound := by
  unfold Manager.load
  split
  · exact sound_empty
  · split
    · exact sound_empty
    · rename_i persisted _
      have copied := loadedEntry_sound persisted
      split
      · exact sound_empty
      · split
        · exact .of rfl copied rfl
        · split
          · rename_i gone
            have running : persisted.lifecycle.isTerminal = false := by
              simp only [abandoned, Bool.and_eq_true, Bool.not_eq_true'] at gone
              exact gone.1.1.1
            exact .of rfl copied (.of_running running rfl rfl rfl)
          · exact .of rfl copied trivial

theorem Manager.Sound.reap (sound : e.Sound) (inactive : e.active = false) (call : Call) :
    (m.reap config now record e call).1.Sound := by
  have cancelled : Entry.Sound { e with cancelled := true } :=
    ⟨sound.active, fun _ _ => rfl⟩
  unfold Manager.reap
  dsimp only
  split
  · exact resume cancelled rfl call
  · split
    · exact .of rfl cancelled inactive
    · exact resume cancelled rfl call

theorem Manager.Sound.claim (sound : e.Sound) (requested : e.lifecycle = .requested)
    (found : m.entry = some e) (workerId : String) (process : RunProcessIdentity) :
    (m.claim now record e workerId process).1.Sound := by
  have kept : Manager.Sound { m with point := .idle } := .of found sound trivial
  unfold Manager.claim
  split
  · exact kept
  · split
    · have running : e.lifecycle.isTerminal = false := by rw [requested]; rfl
      refine .of rfl ⟨fun _ => rfl, fun terminal => ?_⟩
        ⟨fun _ => running, fun h => absurd rfl h, fun _ => rfl, fun h => by cases h⟩
      simp [running] at terminal
    · exact kept

/-- An active entry whose promise only has to settle is sound. -/
theorem Entry.sound_settling (active : e.active = true) (settling : e.progress = .settling) :
    e.Sound := by
  constructor
  · exact fun _ => active
  · rintro - (h | h) <;> simp [settling] at h

/-- A foreground resume leaves the promise and the activity of the entry as they are. -/
theorem projectSegment_frame (segment : List StepCost) (e : Entry) :
    (e.projectSegment config now segment).active = e.active ∧
      (e.projectSegment config now segment).progress = e.progress := by
  have steps (e : Entry) :
      (segment.foldl (fun e step =>
        Entry.onStage config now step { e with lifecycle := .stageChanged }) e).active = e.active ∧
      (segment.foldl (fun e step =>
        Entry.onStage config now step { e with lifecycle := .stageChanged }) e).progress =
          e.progress := by
    induction segment generalizing e with
    | nil => exact ⟨rfl, rfl⟩
    | cons step rest ih => exact ih _
  exact steps _

theorem projectPause_frame (reason : Pause) (metrics : RunMetrics) (segment : List StepCost)
    (e : Entry) :
    (e.projectPause config now reason metrics segment).active = e.active ∧
      (e.projectPause config now reason metrics segment).progress = e.progress := by
  by_cases empty : segment = []
  · simp [Entry.projectPause, empty, Entry.append]
  · simpa [Entry.projectPause, empty, Entry.append] using
      projectSegment_frame segment { e with outcome := none }

theorem projectResult_frame (result : RunPipelineResult) (e : Entry) :
    (e.projectResult config now result).active = e.active ∧
      (e.projectResult config now result).progress = e.progress :=
  projectSegment_frame result.perStep { e with pause := none, outcome := none }

theorem Entry.Sound.project {e e' : Entry} (sound : e.Sound) (inactive : e.active = false)
    (frame : e'.active = e.active ∧ e'.progress = e.progress) : e'.Sound := by
  have idle : e'.progress = .idle := frame.2.trans (sound.idle inactive)
  constructor
  · intro h
    exact absurd idle h
  · rintro - (h | h) <;> simp [idle] at h

/-- The work of a manager leaves its copy sound; a failed launch is that of a run whose
promise this manager does not have. -/
theorem Entry.Sound.run (sound : e.Sound) {work : Work} (suits : work.Suits e)
    (detached : work.launchFailed = true → e.progress = .idle) :
    (work.run config now e).Sound := by
  have promised (h : work.promisedAt ≠ .idle) : e.active = true := sound.active (suits.promised h)
  cases work with
  | create _ => exact ⟨sound.active, sound.cancelled⟩
  | launch workerId =>
      refine ⟨fun _ => suits.launched rfl, fun terminal => ?_⟩
      have running : e.lifecycle.isTerminal = false := suits.opened rfl
      simp [Work.run, Entry.launch, running] at terminal
  | begin => exact ⟨fun _ => promised (by decide), fun terminal => by cases terminal⟩
  | stage step => exact ⟨sound.active, sound.cancelled⟩
  | complete result => exact sound_settling (promised (by simp [Work.promisedAt])) rfl
  | pause reason metrics => exact sound_settling (promised (by simp [Work.promisedAt])) rfl
  | attention => exact sound_settling (promised (by decide)) rfl
  | fail => exact sound_settling (promised (by decide)) rfl
  | settle => exact ⟨fun h => absurd rfl h, by rintro - (h | h) <;> cases h⟩
  | heartbeat => exact ⟨sound.active, sound.cancelled⟩
  | cancel => exact ⟨sound.active, fun _ _ => rfl⟩
  | timeout => exact ⟨sound.active, fun _ _ => rfl⟩
  | abandon => exact ⟨sound.active, fun _ _ => rfl⟩
  | failLaunch =>
      refine ⟨sound.active, fun _ under => ?_⟩
      have idle : (Work.run config now e .failLaunch).progress = .idle := detached rfl
      simp [idle] at under
  | persist => exact sound
  | projectPause reason metrics segment =>
      exact sound.project (suits.projected rfl) (projectPause_frame ..)
  | projectResult result =>
      exact sound.project (suits.projected rfl) (projectResult_frame ..)

theorem Manager.Sound.write (sound : e.Sound) {work : Work} (suits : work.Suits e)
    (detached : work.launchFailed = true → e.progress = .idle) :
    (m.write config now record e work).1.Sound := by
  have after : (work.run config now e).Sound := sound.run suits detached
  refine .of rfl after ?_
  show Point.Suits _ work.next
  cases work with
  | create workerId =>
      cases workerId with
      | none => trivial
      | some workerId =>
          have running : e.lifecycle.isTerminal = false := suits.opened rfl
          exact ⟨fun _ => running, fun h => absurd rfl h, fun _ => suits.launched rfl,
            fun h => by cases h⟩
  | failLaunch => exact Work.Suits.of_closed rfl rfl rfl rfl
  | _ => trivial

theorem Manager.Sound.promise (sound : m.Sound) (found : m.entry = some e)
    (idle : m.point = .idle) {work : Work} (under : e.progress ≠ .idle) (due : work.promisedAt = e.progress) :
    (m.promise e work).Sound := by
  have entry := sound.entry e found
  have promised : work.promisedAt ≠ .idle := by rwa [due]
  unfold Manager.promise
  split
  · rename_i going
    have running : e.lifecycle.isTerminal = false := by
      by_contra terminal
      have at_work : e.progress = .scheduled ∨ e.progress = .executing := by
        rw [← due]
        cases work <;> simp_all [Work.promisedAt]
      have := entry.cancelled (by simpa using terminal) at_work
      simp [going] at this
    refine .of found entry ⟨fun _ => running, fun _ => under, fun h => ?_, ?_⟩
    · exact entry.active under
    · cases work <;> simp_all [Work.promisedAt, Work.projects]
  · split
    · exact sound
    · have settling : Entry.Sound { e with progress := .settling } :=
        Entry.sound_settling (entry.active under) rfl
      refine .of rfl settling ?_
      rw [show Manager.point _ = .idle from idle]
      trivial

theorem Manager.Sound.between (sound : m.Sound) (found : m.entry = some e)
    (idle : m.point = .idle) (action : Action) : (m.between config e action).Sound := by
  have entry := sound.entry e found
  cases action with
  | call method =>
      simp only [Manager.between, Manager.call]
      split
      · exact resume entry found method
      · rename_i inactive
        exact .of found entry (by simpa [Point.Suits] using inactive)
  | promise work =>
      simp only [Manager.between]
      split
      · rename_i due
        exact sound.promise found idle due.1 due.2
      · exact sound
  | settle =>
      simp only [Manager.between]
      split
      · exact .of found entry (.of_closed rfl rfl rfl rfl)
      · exact sound
  | heartbeat =>
      simp only [Manager.between]
      split
      · exact .of found entry (.of_closed rfl rfl rfl rfl)
      · exact sound
  | timeout =>
      simp only [Manager.between]
      split
      · rename_i due
        exact .of found entry (.of_running due.2 rfl rfl rfl)
      · exact sound
  | launchFails =>
      simp only [Manager.between]
      split
      · exact .of found entry (.of_closed rfl rfl rfl rfl)
      · exact sound
  | launched => exact ⟨sound.entry, sound.point⟩
  | construct => exact sound
  | access => exact sound
  | mark marks => exact sound

/-! ## Steps -/

/-- A failed launch is that of a run whose promise the manager does not have. -/
def Work.Detached (e : Entry) (work : Work) : Prop :=
  work.launchFailed = true → e.progress = .idle

instance (e : Entry) (work : Work) : Decidable (work.Detached e) :=
  inferInstanceAs (Decidable (_ → _))

theorem Manager.Sound.access (sound : m.Sound) (found : m.entry = some e)
    (detached : ∀ work, m.point = .writing work → work.Detached e) :
    (m.access config now record e).1.Sound := by
  have entry := sound.entry e found
  have point := sound.point e found
  unfold Manager.access
  split
  · exact sound
  · rename_i call next
    rw [next] at point
    exact refresh entry point found call
  · rename_i call next
    rw [next] at point
    exact reap entry point call
  · rename_i workerId process next
    rw [next] at point
    exact claim entry point found workerId process
  · rename_i work next
    rw [next] at point
    exact write entry point (detached work next)

theorem Manager.Sound.mark (sound : m.Sound) (idle : m.point = .idle) (marks : Marks) :
    (m.mark now record marks).1.Sound := by
  constructor
  · intro e' h
    obtain ⟨e, found, rfl⟩ := Option.map_eq_some_iff.mp h
    exact ⟨(sound.entry e found).active, (sound.entry e found).cancelled⟩
  · intro e' _
    simp only [Manager.mark, idle]
    trivial

theorem Manager.Sound.act (config : BackgroundRunConfig) (now : Nat)
    (record : Option PersistedEntry) (sound : m.Sound) {action : Action}
    (detached : m.Writes (fun e work => work.Detached e) action) :
    (m.act config now record action).1.Sound := by
  rcases m.act_cases config now record action with
    ⟨-, h⟩ | ⟨marks, -, idle, h⟩ | ⟨e, rfl, found, h⟩ | ⟨e, found, idle, h⟩ | h
  · rw [h]
    exact sound_load
  · rw [h]
    exact sound.mark idle marks
  · rw [h]
    refine sound.access found fun work next => detached rfl e found work ?_
    rw [next]
    rfl
  · rw [h]
    exact sound.between found idle action
  · rw [h]
    exact sound

namespace World

def Sound (world : World) : Prop := ∀ p, (world.managers p).Sound

/-- No failed launch is that of a run whose promise the manager has. -/
def Detached (world : World) (event : Event) : Prop :=
  (world.managers event.manager).Writes (fun e work => work.Detached e) event.action

theorem sound_initial (workerId : Option String) : (initial workerId).Sound := by
  intro p
  by_cases owner : p = 0
  · subst owner
    have created : (createdEntry workerId.isSome).Sound := by
      constructor
      · intro h
        exact absurd rfl h
      · intro terminal
        cases terminal
    refine .of rfl created ⟨fun _ => rfl, fun h => absurd rfl h, fun launches => ?_,
      fun h => by cases h⟩
    cases workerId with
    | none => cases launches
    | some workerId => rfl
  · simpa [initial, owner] using Manager.sound_empty

theorem Sound.apply (config : BackgroundRunConfig) {world : World} (sound : world.Sound)
    {event : Event} (detached : world.Detached event) : (world.apply config event).Sound := by
  intro p
  have here := (sound event.manager).act config event.now world.record detached
  by_cases same : p = event.manager
  · subst same
    simpa [World.apply] using here
  · simpa [World.apply, same] using sound p

end World

end AdCoder.BackgroundRuns
