import AdCoder.ProjectOperations.Backlog

/-!
# The claim protocol of the file backlog

Any number of processes work on the files of one store. An operation reads its
item, reads the clock and decides, and writes against the version it read;
other processes and the clock may move between these steps, and a process may
die at any of them. The time of an operation is its own reading of the clock.
-/

namespace AdCoder.ProjectOperations

open Foundation

/-- How far an operation of one process has come. -/
inductive PendingCall where
  | read (id : String) (call : BacklogCall) (current : VersionedState BacklogItem)
  | write (id : String) (call : BacklogCall) (current : VersionedState BacklogItem)
      (time : Nat) (next : BacklogItem)
  | create (id : String) (item : BacklogItem)

/-- The files, the clock and what each process is in the middle of. -/
structure BacklogWorld (π : Type) where
  clock : Nat
  files : VersionedFiles String BacklogItem
  pending : π → Option PendingCall

/-- One step of a process or of the clock. -/
inductive BacklogEvent (π : Type) where
  | tick (elapsed : Nat)
  | create (process : π) (id : String) (candidate : BacklogFollowUp)
  | begin (process : π) (id : String) (call : BacklogCall)
  | decide (process : π)
  | commit (process : π)
  | crash (process : π)

/-- `ID_PATTERN` of the project store. -/
def idPattern : Regex := .sequence [.atStart,
  .rep true 1 (some 64) (.one fun x => Regex.isWord x || x == '-'), .atEnd]

namespace BacklogWorld

variable {π : Type} [DecidableEq π]

/-- The store before any operation. -/
def start (π : Type) (clock : Nat) : BacklogWorld π := ⟨clock, fun _ => none, fun _ => none⟩

/-- The process has nothing in progress any more: it returned, threw or died. -/
def finish (world : BacklogWorld π) (process : π) : BacklogWorld π :=
  { world with pending := Function.update world.pending process none }

def proceed (world : BacklogWorld π) (process : π) (call : PendingCall) : BacklogWorld π :=
  { world with pending := Function.update world.pending process (some call) }

/-- The write of an operation, or nothing on a version conflict. -/
def commitWrite (world : BacklogWorld π) (process : π) (id : String) (expected : Nat)
    (item : BacklogItem) : BacklogWorld π :=
  match world.files.swap id expected item with
  | some files => { world with files := files }.finish process
  | none => world.finish process

/-- The world after an event; an event that cannot happen changes nothing. -/
def after (leaseMs : Nat) (world : BacklogWorld π) : BacklogEvent π → BacklogWorld π
  | .tick elapsed => { world with clock := world.clock + elapsed }
  | .create process id candidate =>
      if world.pending process = none ∧ idPattern.test id then
        world.proceed process (.create id (createdItem id candidate world.clock))
      else world
  | .begin process id call =>
      match validateClaim call.input, world.pending process, world.files id with
      | .ok _, none, some current =>
          if idPattern.test id then world.proceed process (.read id call current) else world
      | _, _, _ => world
  | .decide process =>
      match world.pending process with
      | some (.read id call current) =>
          match call.decide leaseMs id world.clock current.value with
          | .ok next => world.proceed process (.write id call current world.clock next)
          | .error _ => world.finish process
      | _ => world
  | .commit process =>
      match world.pending process with
      | some (.write _ _ current _ next) =>
          world.commitWrite process next.id current.version next
      | some (.create id item) => world.commitWrite process id 0 item
      | _ => world
  | .crash process => world.finish process

end BacklogWorld

/-! ## What an event does -/

section Event

variable {π : Type} [DecidableEq π] {leaseMs : Nat} {world : BacklogWorld π}
  {event : BacklogEvent π} {process other : π} {call made : PendingCall}

@[simp] theorem finish_files : (world.finish process).files = world.files := rfl

@[simp] theorem finish_clock : (world.finish process).clock = world.clock := rfl

@[simp] theorem proceed_files : (world.proceed process call).files = world.files := rfl

@[simp] theorem proceed_clock : (world.proceed process call).clock = world.clock := rfl

@[simp] theorem commitWrite_clock {id : String} {expected : Nat} {item : BacklogItem} :
    (world.commitWrite process id expected item).clock = world.clock := by
  simp only [BacklogWorld.commitWrite]
  split <;> rfl

theorem finish_pending (h : (world.finish process).pending other = some made) :
    world.pending other = some made := by
  simp only [BacklogWorld.finish, Function.update_apply] at h
  split_ifs at h
  exact h

theorem proceed_pending (h : (world.proceed process call).pending other = some made) :
    world.pending other = some made ∨ other = process ∧ made = call := by
  simp only [BacklogWorld.proceed, Function.update_apply] at h
  split_ifs at h with heq
  · exact Or.inr ⟨heq, (Option.some.inj h).symm⟩
  · exact Or.inl h

theorem commitWrite_pending {id : String} {expected : Nat} {item : BacklogItem}
    (h : (world.commitWrite process id expected item).pending other = some made) :
    world.pending other = some made := by
  simp only [BacklogWorld.commitWrite] at h
  split at h
  · exact finish_pending h
  · exact finish_pending h

theorem commitWrite_files {id : String} {expected : Nat} {item : BacklogItem} :
    (world.commitWrite process id expected item).files = world.files ∨
      world.files.swap id expected item =
        some (world.commitWrite process id expected item).files := by
  simp only [BacklogWorld.commitWrite]
  split
  · next hswap => exact Or.inr hswap
  · exact Or.inl rfl

theorem after_clock : world.clock ≤ (world.after leaseMs event).clock := by
  cases event <;> simp only [BacklogWorld.after]
  case tick elapsed => exact Nat.le_add_right _ _
  all_goals
    repeat' split
    all_goals simp

variable (leaseMs world event) in
/-- Only a commit writes, and only against the version it read. -/
theorem after_files :
    (world.after leaseMs event).files = world.files ∨
      ∃ process, event = .commit process ∧
        ((∃ id call current time next,
            world.pending process = some (.write id call current time next) ∧
              world.files.swap next.id current.version next =
                some (world.after leaseMs event).files) ∨
          ∃ id item, world.pending process = some (.create id item) ∧
            world.files.swap id 0 item = some (world.after leaseMs event).files) := by
  cases event with
  | tick elapsed => exact Or.inl rfl
  | commit process =>
      simp only [BacklogWorld.after]
      split
      · next id call current time next hpending =>
          refine commitWrite_files.imp_right fun hswap => ?_
          exact ⟨process, rfl, Or.inl ⟨_, _, _, _, _, hpending, hswap⟩⟩
      · next id item hpending =>
          refine commitWrite_files.imp_right fun hswap => ?_
          exact ⟨process, rfl, Or.inr ⟨_, _, hpending, hswap⟩⟩
      · exact Or.inl rfl
  | create process id candidate =>
      simp only [BacklogWorld.after]
      split_ifs <;> exact Or.inl rfl
  | begin process id call =>
      simp only [BacklogWorld.after]
      repeat' split
      all_goals exact Or.inl rfl
  | decide process =>
      simp only [BacklogWorld.after]
      repeat' split
      all_goals exact Or.inl rfl
  | crash process => exact Or.inl rfl

/-- An operation begins with a read of its file and decides on that read. -/
theorem after_pending (h : (world.after leaseMs event).pending process = some made) :
    world.pending process = some made ∨
      (∃ id candidate, made = .create id (createdItem id candidate world.clock)) ∨
      (∃ id request current, made = .read id request current ∧
        world.files id = some current) ∨
      ∃ id request current next, event = .decide process ∧
        world.pending process = some (.read id request current) ∧
        request.decide leaseMs id world.clock current.value = .ok next ∧
        made = .write id request current world.clock next := by
  cases event with
  | tick elapsed => exact Or.inl h
  | crash other => exact Or.inl (finish_pending h)
  | commit other =>
      simp only [BacklogWorld.after] at h
      repeat' split at h
      · exact Or.inl (commitWrite_pending h)
      · exact Or.inl (commitWrite_pending h)
      · exact Or.inl h
  | create other id candidate =>
      simp only [BacklogWorld.after] at h
      split_ifs at h
      · refine (proceed_pending h).imp_right ?_
        rintro ⟨_, rfl⟩
        exact Or.inl ⟨id, candidate, rfl⟩
      · exact Or.inl h
  | begin other id request =>
      simp only [BacklogWorld.after] at h
      split at h
      · next current _ _ hfile =>
          split_ifs at h
          · refine (proceed_pending h).imp_right ?_
            rintro ⟨_, rfl⟩
            exact Or.inr (Or.inl ⟨id, request, current, rfl, hfile⟩)
          · exact Or.inl h
      · exact Or.inl h
  | decide other =>
      simp only [BacklogWorld.after] at h
      split at h
      · next id request current hpending =>
          split at h
          · next next hnext =>
              refine (proceed_pending h).imp_right ?_
              rintro ⟨rfl, rfl⟩
              exact Or.inr (Or.inr ⟨id, request, current, next, rfl, hpending, hnext, rfl⟩)
          · exact Or.inl (finish_pending h)
      · exact Or.inl h

end Event

/-! ## The invariant -/

section Invariant

variable {π : Type} [DecidableEq π] {leaseMs : Nat}

/-- A process read an item that still stands, and decided on what it read. -/
def PendingSound (leaseMs : Nat) (world : BacklogWorld π) : PendingCall → Prop
  | .read id _ current => current.value.id = id ∧ world.files.Stands id current
  | .write id call current time next =>
      current.value.id = id ∧ world.files.Stands id current ∧ time ≤ world.clock ∧
        call.decide leaseMs id time current.value = .ok next
  | .create id item => ∃ candidate time, item = createdItem id candidate time

structure WorldSound (leaseMs : Nat) (world : BacklogWorld π) : Prop where
  items : ∀ id held, world.files id = some held →
    held.value.id = id ∧ held.value.Coupled ∧ 0 < held.version
  pending : ∀ process call, world.pending process = some call →
    PendingSound leaseMs world call

/-- What one event does to one file. -/
inductive FileChange (leaseMs : Nat) (world : BacklogWorld π) (id : String) :
    Option (VersionedState BacklogItem) → Prop
  | same : FileChange leaseMs world id (world.files id)
  | created {candidate : BacklogFollowUp} {time : Nat} (absent : world.files id = none) :
      FileChange leaseMs world id (some ⟨1, createdItem id candidate time⟩)
  | written {current : VersionedState BacklogItem} {call : BacklogCall} {time : Nat}
      {next : BacklogItem} (held : world.files id = some current) (past : time ≤ world.clock)
      (decided : call.decide leaseMs id time current.value = .ok next) :
      FileChange leaseMs world id (some ⟨current.version + 1, next⟩)

namespace WorldSound

variable {world : BacklogWorld π} {event : BacklogEvent π}

omit [DecidableEq π] in
theorem start (clock : Nat) : WorldSound leaseMs (BacklogWorld.start π clock) := by
  constructor
  · intro id held h
    simp [BacklogWorld.start] at h
  · intro process call h
    simp [BacklogWorld.start] at h

omit [DecidableEq π] in
/-- A write that succeeds replaces exactly the item it was decided on. -/
theorem held_of_swap (sound : WorldSound leaseMs world) {process : π} {id : String}
    {call : BacklogCall} {current : VersionedState BacklogItem} {time : Nat}
    {next : BacklogItem}
    (pending : world.pending process = some (.write id call current time next))
    (version : world.files.version next.id = current.version) :
    next.id = id ∧ world.files id = some current := by
  obtain ⟨hid, stands, _, decided⟩ := sound.pending process _ pending
  have same : next.id = id := (BacklogCall.decide_frame decided).1.trans hid
  exact ⟨same, stands.held (same ▸ version)⟩

theorem fileChange (sound : WorldSound leaseMs world) (event : BacklogEvent π) (id : String) :
    FileChange leaseMs world id ((world.after leaseMs event).files id) := by
  rcases after_files leaseMs world event with same |
    ⟨process, _, ⟨key, call, current, time, next, hpending, hswap⟩ |
      ⟨key, item, hpending, hswap⟩⟩
  · rw [same]
    exact .same
  · obtain ⟨version, files⟩ := VersionedFiles.swap_eq_some hswap
    obtain ⟨hkey, held⟩ := sound.held_of_swap hpending version
    obtain ⟨_, _, past, decided⟩ := sound.pending process _ hpending
    rw [files, hkey]
    by_cases heq : id = key
    · subst heq
      rw [Function.update_self]
      exact .written held past decided
    · rw [Function.update_of_ne heq]
      exact .same
  · obtain ⟨version, files⟩ := VersionedFiles.swap_eq_some hswap
    obtain ⟨candidate, time, rfl⟩ := sound.pending process _ hpending
    rw [files]
    by_cases heq : id = key
    · subst heq
      rw [Function.update_self]
      -- A file that exists has a version above zero, so it is not created again.
      have absent : world.files id = none := by
        cases hfile : world.files id with
        | none => rfl
        | some held =>
            have positive := (sound.items id held hfile).2.2
            rw [VersionedFiles.version_eq hfile] at version
            omega
      exact .created absent
    · rw [Function.update_of_ne heq]
      exact .same

theorem grows : world.files.Grows (world.after leaseMs event).files := by
  rcases after_files leaseMs world event with same |
    ⟨_, _, ⟨_, _, _, _, _, _, hswap⟩ | ⟨_, _, _, hswap⟩⟩
  · rw [same]
    exact .refl _
  · exact VersionedFiles.swap_grows hswap
  · exact VersionedFiles.swap_grows hswap

/-- What a process has decided stays sound while others go on. -/
theorem pendingSound_after {call : PendingCall} (h : PendingSound leaseMs world call) :
    PendingSound leaseMs (world.after leaseMs event) call := by
  cases call with
  | read id call current => exact ⟨h.1, h.2.grows grows⟩
  | write id call current time next =>
      exact ⟨h.1, h.2.1.grows grows, Nat.le_trans h.2.2.1 after_clock, h.2.2.2⟩
  | create id item => exact h

theorem after (sound : WorldSound leaseMs world) :
    WorldSound leaseMs (world.after leaseMs event) := by
  constructor
  · intro id held hheld
    have change := sound.fileChange event id
    generalize (world.after leaseMs event).files id = now at hheld change
    cases change with
    | same => exact sound.items id held hheld
    | created absent =>
        obtain rfl := Option.some.inj hheld
        exact ⟨rfl, rfl, Nat.one_pos⟩
    | written current past decided =>
        obtain rfl := Option.some.inj hheld
        obtain ⟨hid, coupled, _⟩ := sound.items id _ current
        refine ⟨(BacklogCall.decide_frame decided).1.trans hid, ?_, Nat.succ_pos _⟩
        exact (BacklogCall.decide_step decided).coupled coupled
  · intro process made hmade
    rcases after_pending hmade with same | ⟨id, candidate, rfl⟩ | ⟨id, request, current, rfl, held⟩ |
      ⟨id, request, current, next, _, hread, decided, rfl⟩
    · exact pendingSound_after (sound.pending process made same)
    · exact ⟨candidate, world.clock, rfl⟩
    · exact ⟨(sound.items id current held).1, (VersionedFiles.Stands.of_held held).grows grows⟩
    · obtain ⟨hid, stands⟩ := sound.pending process _ hread
      exact ⟨hid, stands.grows grows, after_clock, decided⟩

end WorldSound

end Invariant

/-! ## Runs -/

section Runs

variable {π : Type} [DecidableEq π] {leaseMs : Nat} {origin world later : BacklogWorld π}
  {events more : List (BacklogEvent π)}

def BacklogStep (leaseMs : Nat) (world : BacklogWorld π) (event : BacklogEvent π)
    (next : BacklogWorld π) : Prop :=
  next = world.after leaseMs event

theorem sound_of_run (run : Run (BacklogStep leaseMs) world events later)
    (sound : WorldSound leaseMs world) : WorldSound leaseMs later := by
  refine run.invariant ?_ sound
  rintro _ _ _ before rfl
  exact before.after

theorem grows_of_run (run : Run (BacklogStep leaseMs) world events later) :
    world.files.Grows later.files := by
  induction run with
  | refl => exact .refl _
  | tail _ last ih =>
      obtain rfl := last
      exact ih.trans WorldSound.grows

/-- A done item keeps its record through every run. -/
theorem done_of_run (run : Run (BacklogStep leaseMs) world events later)
    (sound : WorldSound leaseMs world) {id : String} {held : VersionedState BacklogItem}
    (stored : world.files id = some held) (done : held.value.status = .done) :
    later.files id = some held := by
  induction run with
  | refl => exact stored
  | @tail middle last events event run step ih =>
      obtain rfl := step
      have soundMiddle := sound_of_run run sound
      have change := soundMiddle.fileChange event id
      generalize (middle.after leaseMs event).files id = now at change
      cases change with
      | same => exact ih
      | created absent => simp [absent] at ih
      | written current past decided =>
          obtain rfl := Option.some.inj (ih.symm.trans current)
          obtain ⟨_, coupled, _⟩ := soundMiddle.items id _ current
          exact absurd done ((BacklogCall.decide_step decided).not_done coupled)

/-- The run passes through a world in which the operation of the process had
read its item and the clock stood at the operation's time. -/
def DecidedIn (leaseMs : Nat) (origin : BacklogWorld π) (events : List (BacklogEvent π))
    (world : BacklogWorld π) (process : π) (id : String) (call : BacklogCall)
    (current : VersionedState BacklogItem) (time : Nat) : Prop :=
  ∃ before after earlier, events = before ++ after ∧
    Run (BacklogStep leaseMs) origin before earlier ∧
    Run (BacklogStep leaseMs) earlier after world ∧ earlier.clock = time ∧
    earlier.pending process = some (.read id call current)

theorem decidedIn_of_run {clock : Nat}
    (run : Run (BacklogStep leaseMs) (BacklogWorld.start π clock) events world) {process : π} {id : String} {call : BacklogCall} {current : VersionedState BacklogItem}
    {time : Nat} {next : BacklogItem}
    (pending : world.pending process = some (.write id call current time next)) :
    DecidedIn leaseMs (BacklogWorld.start π clock) events world process id call current time := by
  induction run with
  | refl => simp [BacklogWorld.start] at pending
  | @tail middle last events event run step ih =>
      have taken := step
      obtain rfl := step
      rcases after_pending pending with same | ⟨_, _, heq⟩ | ⟨_, _, _, heq, _⟩ |
        ⟨_, _, _, _, _, hread, _, heq⟩
      · obtain ⟨before, after, earlier, rfl, first, rest, clock, read⟩ := ih same
        exact ⟨before, after ++ [event], earlier, by simp, first, rest.tail taken, clock, read⟩
      · cases heq
      · cases heq
      · cases heq
        exact ⟨events, [event], middle, rfl, run, .single taken, rfl, hread⟩

/-- The next commit of the process writes its item. -/
def Succeeds (world : BacklogWorld π) (process : π) (id : String) (call : BacklogCall)
    (time : Nat) : Prop :=
  ∃ current next, world.pending process = some (.write id call current time next) ∧
    world.files.version next.id = current.version

/-- The claim protocol, as it holds of the world that a run has reached. -/
structure ClaimProtocol (leaseMs : Nat) (origin : BacklogWorld π)
    (events : List (BacklogEvent π)) (world : BacklogWorld π) : Prop where
  coupled : ∀ id held, world.files id = some held →
    (held.value.claim.isSome = true ↔
      held.value.status ≠ .queued ∧ held.value.status ≠ .done)
  unique : ∀ id held left right, world.files id = some held →
    held.value.HeldBy left world.clock → held.value.HeldBy right world.clock → left = right
  /-- Nobody but the holder renews or moves an item: when its operation read the
  clock, the item was the one it now replaces and was held by the caller. -/
  holder : ∀ process id call time, Succeeds world process id call time →
    (∀ input, call ≠ .claim input) →
    ∃ before after earlier held, events = before ++ after ∧
      Run (BacklogStep leaseMs) origin before earlier ∧
      Run (BacklogStep leaseMs) earlier after world ∧ earlier.clock = time ∧
      earlier.files id = some held ∧ world.files id = some held ∧
      held.value.HeldBy call.input time
  done : ∀ more later id held, Run (BacklogStep leaseMs) world more later →
    world.files id = some held → held.value.status = .done → later.files id = some held
  changes : ∀ event id held now, world.files id = some held →
    (world.after leaseMs event).files id = some now →
      now.value.status = held.value.status ∨
        now.value.status ∈ held.value.status.transitions ∨
        now.value.status = .claimed ∧
          ∃ old, held.value.claim = some old ∧ old.expired world.clock = true

theorem coupled_iff {item : BacklogItem} (h : item.Coupled) :
    item.claim.isSome = true ↔ item.status ≠ .queued ∧ item.status ≠ .done := by
  rw [h]
  cases item.status <;> decide

/-- A version that the item had when it was read and still has when it is written
was there in between. -/
theorem held_between (sound : WorldSound leaseMs world) {process : π} {id : String}
    {call : BacklogCall} {current : VersionedState BacklogItem}
    (read : world.pending process = some (.read id call current))
    (run : Run (BacklogStep leaseMs) world more later) (held : later.files id = some current) :
    world.files id = some current := by
  obtain ⟨_, now, hnow, le, same⟩ := sound.pending process _ read
  obtain ⟨last, hlast, le', _⟩ := grows_of_run run id now hnow
  obtain rfl := Option.some.inj (hlast.symm.trans held)
  rw [hnow, same (Nat.le_antisymm le' le)]

theorem changes_of_sound (sound : WorldSound leaseMs world) {event : BacklogEvent π}
    {id : String} {held now : VersionedState BacklogItem} (before : world.files id = some held)
    (after : (world.after leaseMs event).files id = some now) :
    now.value.status = held.value.status ∨ now.value.status ∈ held.value.status.transitions ∨
      now.value.status = .claimed ∧
        ∃ old, held.value.claim = some old ∧ old.expired world.clock = true := by
  have change := sound.fileChange event id
  generalize (world.after leaseMs event).files id = file at after change
  cases change with
  | same =>
      obtain rfl := Option.some.inj (before.symm.trans after)
      exact Or.inl rfl
  | created absent => simp [absent] at before
  | written current past decided =>
      obtain rfl := Option.some.inj (before.symm.trans current)
      obtain rfl := Option.some.inj after
      refine (BacklogCall.decide_step decided).status.imp_right (Or.imp_right ?_)
      rintro ⟨status, old, hold, expired⟩
      exact ⟨status, old, hold, BacklogClaim.expired_mono expired past⟩

/-- Every interleaving of the store's operations keeps the claim protocol. -/
theorem claim_protocol {clock : Nat}
    (run : Run (BacklogStep leaseMs) (BacklogWorld.start π clock) events world) :
    ClaimProtocol leaseMs (BacklogWorld.start π clock) events world := by
  have sound := sound_of_run run (WorldSound.start clock)
  constructor
  · intro id held stored
    exact coupled_iff (sound.items id held stored).2.1
  · intro id held left right _ hl hr
    exact hl.unique hr
  · intro process id call time ⟨current, next, pending, version⟩ notClaim
    obtain ⟨_, held⟩ := sound.held_of_swap pending version
    obtain ⟨before, after, earlier, split, first, rest, clock, read⟩ :=
      decidedIn_of_run run pending
    have soundEarlier := sound_of_run first (WorldSound.start _)
    refine ⟨before, after, earlier, current, split, first, rest, clock,
      held_between soundEarlier read rest held, held, ?_⟩
    obtain ⟨_, _, _, decided⟩ := sound.pending process _ pending
    exact BacklogCall.decide_holder decided notClaim
  · intro more later id held further stored done
    exact done_of_run further sound stored done
  · intro event id held now before after
    exact changes_of_sound sound before after

end Runs

/-! ## A scripted run -/

def workerClaim (owner : String) : ClaimInput := ⟨owner, "run-1", "feature/a"⟩

/-- One worker's claim expires and another one claims the item again. -/
def reclaimScript : List (BacklogEvent Nat) := [
  .create 0 "1" ⟨"t", [], [], none⟩, .commit 0,
  .begin 0 "1" (.claim (workerClaim "ada")), .decide 0, .commit 0, .tick 10,
  .begin 1 "1" (.claim (workerClaim "bob")), .decide 1, .commit 1,
  .begin 1 "1" (.transition .inProgress (workerClaim "bob")), .decide 1]

theorem claim_protocol_reclaimScript :
    ((reclaimScript.foldl (·.after 10 ·) (BacklogWorld.start Nat 0)).files "1").any
        (fun held => held.value.status = .claimed ∧ held.version = 3) = true ∧
      ClaimProtocol 10 (BacklogWorld.start Nat 0) reclaimScript
        (reclaimScript.foldl (·.after 10 ·) (BacklogWorld.start Nat 0)) :=
  ⟨by decide +kernel, claim_protocol (Run.foldl _ _ _)⟩

end AdCoder.ProjectOperations
