import AdCoder.Foundation.Runs
import AdCoder.PrivateStore.Lock

/-!
# Exclusion under the lock of a private store

A process that looks at an abandoned lock removes it later by its name. As long
as this never hits a lock that a live process has created since, one store at a
time is in its section, and every publication starts from the one before it.
-/

namespace AdCoder.PrivateStore

open Foundation

/-! ## Publications in order -/

/-- Each publication comes from the text that the one before it left. -/
def Chained : Option String → List Publication → Option String → Prop
  | first, [], last => last = first
  | first, entry :: rest, last =>
      entry.before = first ∧ entry.operation entry.before = .publish entry.after ∧
        Chained (some entry.after) rest last

theorem Chained.append {first last : Option String} {history : List Publication}
    (chained : Chained first history last) {entry : Publication} (before : entry.before = last)
    (publishes : entry.operation entry.before = .publish entry.after) :
    Chained first (history ++ [entry]) (some entry.after) := by
  induction history generalizing first with
  | nil =>
      obtain rfl : last = first := chained
      exact ⟨before, publishes, rfl⟩
  | cons other rest ih => exact ⟨chained.1, chained.2.1, ih chained.2.2⟩

/-- After a publication come those that were made from it. -/
theorem Chained.after {file last : Option String} {older newer : List Publication}
    {entry : Publication} (chained : Chained file (older ++ entry :: newer) last) :
    Chained (some entry.after) newer last := by
  induction older generalizing file with
  | nil => exact chained.2.2
  | cons other rest ih => exact ih chained.2.2

namespace World

/-! ## Steps that hit no other lock -/

/-- The store is live and has created the lock. -/
def Holds (world : World) (a lock : Nat) : Prop :=
  (world.agents a).status = .live ∧ ∃ holding, (world.agents a).point = .holding lock holding

/-- A waiter meets no lock that has vanished or been replaced since it opened it, nor one that
its creator has not written; it removes the lock that it inspected, or one that nobody holds. -/
def Spared (store : StoreKind) (world : World) : Waiting → Prop
  | .stating lock => store = .profile → world.lockName = some lock
  | .parsing lock => (world.locks lock).metadata ≠ .unreadable
  | .comparing lock =>
      ∀ current ∈ world.lockName, (world.locks current).ino = (world.locks lock).ino
  | .reclaiming lock => ∀ current ∈ world.lockName, current = lock ∨ ∀ b, ¬ world.Holds b current
  | _ => True

def Spares (store : StoreKind) (world : World) : Event → Prop
  | .act a _ (.access _) =>
      (world.agents a).status = .live →
        ∀ waiting, (world.agents a).point = .waiting waiting → world.Spared store waiting
  | _ => True

/-! ## What every store keeps -/

/-- A returned text was published; a call gives up waiting only when its time is over or it
is aborted. -/
def Settled (world : World) (a : Nat) : Outcome → Prop
  | .returns (some text) => ∃ entry ∈ world.history, entry.agent = a ∧ entry.after = text
  | .waitFails failure => failure = .timedOut ∨ failure = .aborted
  | _ => True

/-- The file is as the operation knows it. -/
def Knows (world : World) (a : Nat) : Holding → Prop
  | .checking version text => version = world.version ∧ world.file = some text
  | .updating before => world.file = before
  | .publishing before after =>
      world.file = before ∧ (world.agents a).operation before = .publish after
  | .published after => world.Settled a (.returns (some after))
  | .releasing outcome | .unlinking outcome => world.Settled a outcome
  | _ => True

/-- The lock that is inspected is an old one; once its process is found to be gone, no live
store holds it. -/
def Inspects (world : World) : Waiting → Prop
  | .stating lock | .parsing lock => lock < world.created
  | .probing lock pid => lock < world.created ∧ (world.locks lock).metadata = .pid pid
  | .comparing lock | .reclaiming lock => lock < world.created ∧ ∀ b, ¬ world.Holds b lock
  | _ => True

def Fits (world : World) (a : Nat) : Point → Prop
  | .idle => True
  | .waiting waiting => world.Inspects waiting
  | .holding lock holding =>
      world.lockName = some lock ∧
        ((world.locks lock).metadata = .unreadable ∨
          (world.locks lock).metadata = .pid (world.agents a).pid) ∧
        world.Knows a holding
  | .finished outcome => world.Settled a outcome

structure Sound (first : Option String) (world : World) : Prop where
  alive : ∀ a, (world.agents a).status = .live → world.alive (world.agents a).pid = true
  fits : ∀ a, (world.agents a).status = .live → world.Fits a (world.agents a).point
  alone : ∀ a b l l', world.Holds a l → world.Holds b l' → a = b
  lock : ∀ lock ∈ world.lockName, lock < world.created
  returned : ∀ a outcome, (world.agents a).point = .finished outcome → world.Settled a outcome
  chained : Chained first world.history world.file

variable {store : StoreKind} {first : Option String} {world world' : World} {a : Nat}

theorem Holds.point {lock : Nat} {holding : Holding} (live : (world.agents a).status = .live)
    (next : (world.agents a).point = .holding lock holding) : world.Holds a lock :=
  ⟨live, holding, next⟩

theorem Sound.named (sound : world.Sound first) {lock : Nat} (holds : world.Holds a lock) :
    world.lockName = some lock := by
  obtain ⟨live, holding, next⟩ := holds
  have fits := sound.fits a live
  rw [next] at fits
  exact fits.1

/-- What a step of one store leaves to the others. -/
structure Frame (world world' : World) (a : Nat) : Prop where
  others : ∀ b ≠ a, world'.agents b = world.agents b
  created : world.created ≤ world'.created
  pids : ∀ l < world.created, ∀ pid, (world.locks l).metadata = .pid pid →
    (world'.locks l).metadata = .pid pid
  history : ∀ entry ∈ world.history, entry ∈ world'.history
  holds : ∀ l < world.created, world'.Holds a l → world.Holds a l
  shared : ∀ b ≠ a, ∀ l, world.Holds b l → world'.lockName = world.lockName ∧
    world'.file = world.file ∧ world'.version = world.version ∧ world'.locks l = world.locks l

theorem Settled.frame {b : Nat} {outcome : Outcome} (settled : world.Settled b outcome)
    (kept : ∀ entry ∈ world.history, entry ∈ world'.history) : world'.Settled b outcome := by
  cases outcome with
  | returns published =>
      cases published with
      | none => trivial
      | some text =>
          obtain ⟨entry, old, own⟩ := settled
          exact ⟨entry, kept entry old, own⟩
  | waitFails failure => exact settled
  | throws => trivial
  | unsafeLock => trivial
  | changed => trivial
  | again => trivial

theorem Frame.other_holds (frame : Frame world world' a) {b l : Nat} (other : b ≠ a) :
    world'.Holds b l ↔ world.Holds b l := by
  rw [Holds, Holds, frame.others b other]

theorem Frame.free (frame : Frame world world' a) {lock : Nat} (old : lock < world.created)
    (free : ∀ b, ¬ world.Holds b lock) (b : Nat) : ¬ world'.Holds b lock := by
  intro holds
  by_cases same : b = a
  · subst same
    exact free b (frame.holds lock old holds)
  · exact free b ((frame.other_holds same).mp holds)

/-- What a point presupposes stays true if no old lock gets a holder or another process, and
the lock of a holder and the file stay as they are. -/
theorem Fits.transfer {b : Nat} {point : Point} (fits : world.Fits b point)
    (pid : (world'.agents b).pid = (world.agents b).pid)
    (operation : (world'.agents b).operation = (world.agents b).operation)
    (created : world.created ≤ world'.created)
    (pids : ∀ l < world.created, ∀ pid, (world.locks l).metadata = .pid pid →
      (world'.locks l).metadata = .pid pid)
    (history : ∀ entry ∈ world.history, entry ∈ world'.history)
    (free : ∀ l < world.created, (∀ c, ¬ world.Holds c l) → ∀ c, ¬ world'.Holds c l)
    (shared : ∀ l holding, point = .holding l holding → world'.lockName = world.lockName ∧
      world'.file = world.file ∧ world'.version = world.version ∧ world'.locks l = world.locks l) :
    world'.Fits b point := by
  have later {lock : Nat} (old : lock < world.created) : lock < world'.created :=
    Nat.lt_of_lt_of_le old created
  cases point with
  | idle => trivial
  | waiting waiting =>
      cases waiting with
      | stating lock => exact later fits
      | parsing lock => exact later fits
      | probing lock pid => exact ⟨later fits.1, pids lock fits.1 pid fits.2⟩
      | comparing lock => exact ⟨later fits.1, free lock fits.1 fits.2⟩
      | reclaiming lock => exact ⟨later fits.1, free lock fits.1 fits.2⟩
      | opening => trivial
      | inspecting => trivial
      | pausing => trivial
      | sleeping => trivial
  | finished outcome => exact Settled.frame fits history
  | holding lock holding =>
      obtain ⟨name, file, version, same⟩ := shared lock holding rfl
      obtain ⟨named, metadata, knows⟩ := fits
      refine ⟨name.trans named, ?_, ?_⟩
      · rw [same, pid]
        exact metadata
      · cases holding with
        | created => trivial
        | writing => trivial
        | reading => trivial
        | checking seen text => exact ⟨knows.1.trans version.symm, file.trans knows.2⟩
        | updating before => exact file.trans knows
        | publishing before after => exact ⟨file.trans knows.1, operation ▸ knows.2⟩
        | published after =>
            have settled : world.Settled b (.returns (some after)) := knows
            exact settled.frame history
        | releasing outcome => exact Settled.frame knows history
        | unlinking outcome => exact Settled.frame knows history

/-- The other stores go on as they were. -/
theorem Frame.fits (frame : Frame world world' a) {b : Nat} (other : b ≠ a)
    (live : (world.agents b).status = .live) (fits : world.Fits b (world.agents b).point) :
    world'.Fits b (world'.agents b).point := by
  have agent := frame.others b other
  rw [agent]
  refine fits.transfer (by rw [agent]) (by rw [agent]) frame.created frame.pids frame.history
    (fun l old free => frame.free old free) fun l holding next => ?_
  exact frame.shared b other l (.point live next)

/-- A step of one store keeps what all stores keep. -/
theorem Sound.step (sound : world.Sound first) (frame : Frame world world' a)
    (alive : ∀ pid, world.alive pid = true → world'.alive pid = true)
    (own : world'.alive (world'.agents a).pid = true ∧ world'.Fits a (world'.agents a).point)
    (alone : ∀ l, world'.Holds a l → ∀ b ≠ a, ∀ l', ¬ world.Holds b l')
    (lock : ∀ lock ∈ world'.lockName, lock < world'.created)
    (chained : Chained first world'.history world'.file) : world'.Sound first where
  alive b live := by
    by_cases same : b = a
    · subst same
      exact own.1
    · rw [frame.others b same] at live ⊢
      exact alive _ (sound.alive b live)
  fits b live := by
    by_cases same : b = a
    · subst same
      exact own.2
    · rw [frame.others b same] at live
      exact frame.fits same live (sound.fits b live)
  alone b c l l' holds holds' := by
    by_cases same : b = a
    · by_cases same' : c = a
      · exact same.trans same'.symm
      · subst same
        exact absurd ((frame.other_holds same').mp holds') (alone l holds c same' l')
    · have held := (frame.other_holds same).mp holds
      by_cases same' : c = a
      · subst same'
        exact absurd held (alone l' holds' b same l)
      · exact sound.alone b c l l' held ((frame.other_holds same').mp holds')
  lock := lock
  returned b outcome ends := by
    by_cases same : b = a
    · subst same
      have fits := own.2
      rwa [ends] at fits
    · rw [frame.others b same] at ends
      exact (sound.returned b outcome ends).frame frame.history
  chained := chained

/-! ## Accesses -/

@[simp] theorem goto_point (world : World) (a : Nat) (point : Point) :
    ((world.goto a point).agents a).point = point := by simp [goto]

@[simp] theorem goto_pid (world : World) (a b : Nat) (point : Point) :
    ((world.goto a point).agents b).pid = (world.agents b).pid := by
  by_cases same : b = a <;> simp [goto, same]

@[simp] theorem goto_operation (world : World) (a b : Nat) (point : Point) :
    ((world.goto a point).agents b).operation = (world.agents b).operation := by
  by_cases same : b = a <;> simp [goto, same]

@[simp] theorem goto_locks (world : World) (a : Nat) (point : Point) :
    (world.goto a point).locks = world.locks := rfl

@[simp] theorem goto_alive (world : World) (a : Nat) (point : Point) :
    (world.goto a point).alive = world.alive := rfl

/-- A store that goes on to a point is at that point. -/
theorem holds_goto {point : Point} {lock : Nat} (holds : (world.goto a point).Holds a lock) :
    ∃ holding, point = .holding lock holding := by
  obtain ⟨-, holding, next⟩ := holds
  exact ⟨holding, by simpa using next⟩

theorem frame_goto {point : Point}
    (keeps : ∀ lock holding, point = .holding lock holding → world.Holds a lock) :
    Frame world (world.goto a point) a where
  others b other := by simp [goto, other]
  created := Nat.le_refl _
  pids _ _ _ same := same
  history _ old := old
  holds lock _ holds := by
    obtain ⟨holding, next⟩ := holds_goto holds
    exact keeps lock holding next
  shared _ _ _ _ := ⟨rfl, rfl, rfl, rfl⟩

/-- What fits a point fits it when the store has gone there. -/
theorem Frame.fits_goto {point : Point} (frame : Frame world (world.goto a point) a)
    (fits : world.Fits a point) : (world.goto a point).Fits a point :=
  fits.transfer (by simp) (by simp) frame.created frame.pids frame.history
    (fun _ old free => frame.free old free) fun _ _ _ => ⟨rfl, rfl, rfl, rfl⟩

/-- Nobody else holds a lock. -/
theorem Sound.unheld (sound : world.Sound first) {lock : Nat} (holds : world.Holds a lock) (b : Nat)
    (other : b ≠ a) (l : Nat) : ¬ world.Holds b l :=
  fun held => other (sound.alone b a l lock held holds)

theorem Sound.goto (sound : world.Sound first) (live : (world.agents a).status = .live)
    {point : Point} (fits : world.Fits a point)
    (keeps : ∀ lock holding, point = .holding lock holding → world.Holds a lock) :
    (world.goto a point).Sound first := by
  have frame := frame_goto keeps
  refine sound.step frame (fun _ h => h) ⟨?_, ?_⟩ ?_ sound.lock sound.chained
  · simpa using sound.alive a live
  · simpa using frame.fits_goto fits
  · intro lock holds
    exact sound.unheld (frame.holds lock (sound.lock lock (by
      obtain ⟨holding, rfl⟩ := holds_goto holds
      exact fits.1)) holds)

theorem Sound.goto_waiting (sound : world.Sound first) (live : (world.agents a).status = .live)
    {waiting : Waiting} (inspects : world.Inspects waiting) :
    (world.goto a (.waiting waiting)).Sound first :=
  sound.goto live inspects (by rintro _ _ ⟨⟩)

theorem Sound.goto_finished (sound : world.Sound first) (live : (world.agents a).status = .live)
    {outcome : Outcome} (settled : world.Settled a outcome) :
    (world.goto a (.finished outcome)).Sound first :=
  sound.goto live settled (by rintro _ _ ⟨⟩)

/-! ### Without the lock -/

/-- While nothing has the lock's name, nobody holds a lock. -/
theorem Sound.free (sound : world.Sound first) (absent : world.lockName = none) (b l : Nat) :
    ¬ world.Holds b l := by
  intro holds
  simp [sound.named holds] at absent

theorem Sound.openLock (sound : world.Sound first) (live : (world.agents a).status = .live)
    (now ino : Nat) : (world.openLock a now ino).Sound first := by
  unfold World.openLock
  cases absent : world.lockName with
  | some lock => exact sound.goto_waiting live trivial
  | none =>
      have free := sound.free absent
      refine sound.step (a := a) ?_ (fun _ h => h) ⟨?_, ?_⟩ ?_ ?_ sound.chained
      · constructor
        · intro b other
          simp [World.goto, other]
        · exact Nat.le_succ _
        · intro l old pid names
          simpa [World.goto, Nat.ne_of_lt old] using names
        · exact fun _ old => old
        · intro l old holds
          obtain ⟨holding, next⟩ := holds_goto holds
          cases next
          exact absurd old (Nat.lt_irrefl _)
        · intro b _ l holds
          exact absurd holds (free b l)
      · simpa [World.goto] using sound.alive a live
      · simp [World.goto, Fits, Knows]
      · exact fun _ _ b _ l => free b l
      · rintro _ ⟨⟩
        exact Nat.lt_succ_self _

theorem Sound.inspectLock (sound : world.Sound first) (live : (world.agents a).status = .live)
    {now lock : Nat} (old : lock < world.created)
    (spared : store = .profile → world.lockName = some lock) :
    (world.inspectLock store a now lock).Sound first := by
  unfold World.inspectLock
  split
  · rename_i vanished
    cases store with
    | credential => exact sound.goto_waiting live trivial
    | profile => exact absurd (spared rfl) vanished
  · split
    · exact sound.goto_waiting live trivial
    · exact sound.goto_waiting live old

theorem Sound.parseLock (sound : world.Sound first) (live : (world.agents a).status = .live)
    {lock : Nat} (old : lock < world.created)
    (spared : (world.locks lock).metadata ≠ .unreadable) :
    (world.parseLock a lock).Sound first := by
  unfold World.parseLock
  cases metadata : (world.locks lock).metadata with
  | unreadable => exact absurd metadata spared
  | anonymous => exact sound.goto_waiting live trivial
  | pid pid =>
      refine sound.goto_waiting live ?_
      split
      · trivial
      · exact ⟨old, metadata⟩

/-- A lock whose process is gone is held by no live store. -/
theorem Sound.abandoned (sound : world.Sound first) {lock pid : Nat}
    (names : (world.locks lock).metadata = .pid pid) (gone : world.alive pid = false) (b : Nat) :
    ¬ world.Holds b lock := by
  rintro ⟨live, holding, next⟩
  have fits := sound.fits b live
  rw [next] at fits
  rcases fits.2.1 with unwritten | own
  · cases names.symm.trans unwritten
  · obtain rfl : pid = (world.agents b).pid := by simpa using names.symm.trans own
    simp [sound.alive b live] at gone

theorem Sound.probeLock (sound : world.Sound first) (live : (world.agents a).status = .live)
    {lock pid : Nat} (old : lock < world.created)
    (names : (world.locks lock).metadata = .pid pid) :
    (world.probeLock store a lock pid).Sound first := by
  unfold World.probeLock
  split
  · exact sound.goto_waiting live trivial
  · rename_i gone
    have abandoned := sound.abandoned names (by simpa using gone)
    cases store with
    | credential => exact sound.goto_waiting live ⟨old, abandoned⟩
    | profile => exact sound.goto_waiting live ⟨old, abandoned⟩

theorem Sound.compareLock (sound : world.Sound first) (live : (world.agents a).status = .live)
    {lock : Nat} (old : lock < world.created) (abandoned : ∀ b, ¬ world.Holds b lock)
    (spared : ∀ current ∈ world.lockName, (world.locks current).ino = (world.locks lock).ino) :
    (world.compareLock a lock).Sound first := by
  unfold World.compareLock
  cases named : world.lockName with
  | none => exact sound.goto_waiting live trivial
  | some current =>
      simp only [spared current named, if_true]
      exact sound.goto_waiting live ⟨old, abandoned⟩

/-- Removing a lock that no live store holds leaves the holder's lock where it is. -/
theorem Sound.reclaim (sound : world.Sound first) (live : (world.agents a).status = .live)
    {lock : Nat} (at_reclaim : (world.agents a).point = .waiting (.reclaiming lock))
    (spared : ∀ current ∈ world.lockName, current = lock ∨ ∀ b, ¬ world.Holds b current) :
    (world.unlinkLock.goto a (.waiting .opening)).Sound first := by
  have fits := sound.fits a live
  rw [at_reclaim] at fits
  have free (b l : Nat) : ¬ world.Holds b l := by
    intro holds
    rcases spared l (sound.named holds) with rfl | nobody
    · exact fits.2 b holds
    · exact nobody b holds
  have waits (l : Nat) : ¬ (world.unlinkLock.goto a (.waiting .opening)).Holds a l := by
    intro holds
    obtain ⟨holding, next⟩ := holds_goto holds
    cases next
  refine sound.step (a := a) ?_ (fun _ h => h) ⟨?_, ?_⟩ ?_ ?_ sound.chained
  · constructor
    · intro b other
      simp [World.goto, World.unlinkLock, other]
    · exact Nat.le_refl _
    · exact fun _ _ _ same => same
    · exact fun _ old => old
    · exact fun l _ holds => absurd holds (waits l)
    · exact fun b _ l holds => absurd holds (free b l)
  · simpa [World.unlinkLock] using sound.alive a live
  · simp [Fits, Inspects]
  · exact fun l holds => absurd holds (waits l)
  · rintro _ ⟨⟩

theorem Sound.wait (sound : world.Sound first) (live : (world.agents a).status = .live)
    {waiting : Waiting} (next : (world.agents a).point = .waiting waiting)
    (spared : world.Spared store waiting) (now ino : Nat) :
    (world.wait store a now ino waiting).Sound first := by
  have fits := sound.fits a live
  rw [next] at fits
  cases waiting with
  | opening => exact sound.openLock live now ino
  | inspecting =>
      simp only [World.wait]
      cases named : world.lockName with
      | none => exact sound.goto_waiting live trivial
      | some lock => exact sound.goto_waiting live (sound.lock lock named)
  | stating lock => exact sound.inspectLock live fits spared
  | parsing lock => exact sound.parseLock live fits spared
  | probing lock pid => exact sound.probeLock live fits.1 fits.2
  | comparing lock => exact sound.compareLock live fits.1 fits.2 spared
  | reclaiming lock => exact sound.reclaim live next spared
  | pausing =>
      simp only [World.wait]
      split
      · exact sound.goto_finished live (.inl rfl)
      · exact sound.goto_waiting live trivial
  | sleeping => exact sound.goto_waiting live trivial

/-! ### With the lock -/

/-- A step of the holder; it keeps its lock or gives it up. -/
theorem Sound.hold_step (sound : world.Sound first) {lock : Nat} (holds : world.Holds a lock)
    {middle : World} {point : Point} (agents : middle.agents = world.agents)
    (alive : middle.alive = world.alive) (created : middle.created = world.created)
    (pids : ∀ l < world.created, ∀ pid, (world.locks l).metadata = .pid pid →
      (middle.locks l).metadata = .pid pid)
    (history : ∀ entry ∈ world.history, entry ∈ middle.history)
    (keeps : ∀ l holding, point = .holding l holding → l = lock)
    (fits : (middle.goto a point).Fits a point)
    (named : ∀ l ∈ middle.lockName, l = lock)
    (chained : Chained first middle.history middle.file) :
    (middle.goto a point).Sound first := by
  have own (l : Nat) (held : (middle.goto a point).Holds a l) : world.Holds a l := by
    obtain ⟨holding, next⟩ := holds_goto held
    rw [keeps l holding next]
    exact holds
  refine sound.step (a := a) ?_ (by simp [alive]) ⟨?_, by simpa using fits⟩ ?_ ?_
    chained
  · constructor
    · intro b other
      simp [World.goto, agents, other]
    · exact Nat.le_of_eq created.symm
    · exact pids
    · exact history
    · exact fun l _ held => own l held
    · exact fun b other l held => absurd held (sound.unheld holds b other l)
  · simpa [alive, agents] using sound.alive a holds.1
  · exact fun l held => sound.unheld (own l held)
  · intro l name
    rw [show (middle.goto a point).created = middle.created from rfl, created, named l name]
    exact sound.lock lock (sound.named holds)

/-- What the holder of a lock keeps. -/
theorem Sound.holding (sound : world.Sound first) (live : (world.agents a).status = .live)
    {lock : Nat} {holding : Holding} (next : (world.agents a).point = .holding lock holding) :
    world.lockName = some lock ∧
      ((world.locks lock).metadata = .unreadable ∨
        (world.locks lock).metadata = .pid (world.agents a).pid) ∧
      world.Knows a holding := by
  have fits := sound.fits a live
  rwa [next] at fits

theorem Sound.goto_holding (sound : world.Sound first) (live : (world.agents a).status = .live)
    {lock : Nat} {holding next : Holding} (here : (world.agents a).point = .holding lock holding)
    (knows : world.Knows a next) : (world.goto a (.holding lock next)).Sound first := by
  obtain ⟨named, metadata, -⟩ := sound.holding live here
  refine sound.goto live ⟨named, metadata, knows⟩ ?_
  rintro _ _ ⟨⟩
  exact .point live here

theorem Sound.writeLock (sound : world.Sound first) (live : (world.agents a).status = .live)
    {lock : Nat} (here : (world.agents a).point = .holding lock .writing) (now : Nat) :
    ((world.writeLock a now lock).goto a (.holding lock .reading)).Sound first := by
  obtain ⟨named, metadata, -⟩ := sound.holding live here
  refine sound.hold_step (.point live here) rfl rfl rfl ?_ (fun _ old => old) ?_ ?_ ?_ sound.chained
  · intro l _ pid names
    by_cases own : l = lock
    · subst own
      rcases metadata with unwritten | mine
      · cases names.symm.trans unwritten
      · obtain rfl : pid = (world.agents a).pid := by simpa using names.symm.trans mine
        simp [World.writeLock]
    · simpa [World.writeLock, own] using names
  · rintro _ _ ⟨⟩
    rfl
  · refine ⟨named, .inr ?_, trivial⟩
    simp [World.writeLock]
  · intro l name
    exact Option.some.inj (name.symm.trans named)

theorem Sound.update (sound : world.Sound first) (live : (world.agents a).status = .live)
    {lock : Nat} {before : Option String}
    (here : (world.agents a).point = .holding lock (.updating before)) :
    (world.update store a lock before).Sound first := by
  obtain ⟨-, -, file⟩ := sound.holding live here
  unfold World.update
  cases change : (world.agents a).operation before with
  | unchanged => exact sound.goto_holding live here trivial
  | publish after => exact sound.goto_holding live here ⟨file, change⟩
  | throws => exact sound.goto_holding live here trivial
  | throwsExists =>
      cases store with
      | credential => exact sound.goto_holding live here trivial
      | profile => exact sound.goto_holding live here trivial

/-- A publication comes from the text that it replaces. -/
theorem Sound.publish (sound : world.Sound first) (live : (world.agents a).status = .live)
    {lock : Nat} {before : Option String} {after : String}
    (here : (world.agents a).point = .holding lock (.publishing before after)) :
    ((world.publish a before after).goto a (.holding lock (.published after))).Sound first := by
  obtain ⟨named, metadata, file, publishes⟩ := sound.holding live here
  refine sound.hold_step (.point live here) rfl rfl rfl (fun _ _ _ same => same) ?_ ?_ ?_ ?_ ?_
  · intro entry old
    exact List.mem_append_left _ old
  · rintro _ _ ⟨⟩
    rfl
  · refine ⟨named, by simpa [World.publish] using metadata, ?_⟩
    exact ⟨_, List.mem_append_right _ (List.mem_singleton.mpr rfl), rfl, rfl⟩
  · intro l name
    exact Option.some.inj (name.symm.trans named)
  · exact sound.chained.append file.symm publishes

theorem finish_eq (world : World) (a : Nat) (outcome : Outcome) :
    ∃ point, world.finish a outcome = world.goto a point ∧
      (point = .waiting .inspecting ∨ point = .finished outcome) := by
  cases outcome with
  | again => exact ⟨_, rfl, .inl rfl⟩
  | returns published => exact ⟨_, rfl, .inr rfl⟩
  | throws => exact ⟨_, rfl, .inr rfl⟩
  | unsafeLock => exact ⟨_, rfl, .inr rfl⟩
  | changed => exact ⟨_, rfl, .inr rfl⟩
  | waitFails failure => exact ⟨_, rfl, .inr rfl⟩

theorem Sound.unlinkLock (sound : world.Sound first) (live : (world.agents a).status = .live)
    {lock : Nat} {outcome : Outcome}
    (here : (world.agents a).point = .holding lock (.unlinking outcome)) :
    (world.unlinkLock.finish a outcome).Sound first := by
  obtain ⟨-, -, settled⟩ := sound.holding live here
  obtain ⟨point, finish, ends⟩ := world.unlinkLock.finish_eq a outcome
  rw [finish]
  refine sound.hold_step (.point live here) rfl rfl rfl (fun _ _ _ same => same)
    (fun _ old => old) ?_ ?_ ?_ sound.chained
  · rcases ends with rfl | rfl <;> rintro _ _ ⟨⟩
  · rcases ends with rfl | rfl
    · trivial
    · exact settled
  · rintro _ ⟨⟩

theorem Sound.release (sound : world.Sound first) (live : (world.agents a).status = .live)
    {lock : Nat} {outcome : Outcome}
    (here : (world.agents a).point = .holding lock (.releasing outcome)) :
    (world.release store a lock outcome).Sound first := by
  obtain ⟨named, -, settled⟩ := sound.holding live here
  simp only [World.release, named, if_true]
  exact sound.goto_holding live here settled

theorem Sound.hold (sound : world.Sound first) (live : (world.agents a).status = .live)
    {lock : Nat} {holding : Holding} (here : (world.agents a).point = .holding lock holding)
    (now : Nat) : (world.hold store a now lock holding).Sound first := by
  obtain ⟨named, -, knows⟩ := sound.holding live here
  cases holding with
  | created =>
      simp only [World.hold, named, if_true]
      exact sound.goto_holding live here trivial
  | writing => exact sound.writeLock live here now
  | reading =>
      simp only [World.hold]
      cases file : world.file with
      | none => exact sound.goto_holding live here file
      | some text => exact sound.goto_holding live here ⟨rfl, file⟩
  | checking version text =>
      obtain ⟨same, file⟩ := knows
      simp only [World.hold, same, if_true]
      exact sound.goto_holding live here file
  | updating before => exact sound.update live here
  | publishing before after => exact sound.publish live here
  | published after => exact sound.goto_holding live here knows
  | releasing outcome => exact sound.release live here
  | unlinking outcome => exact sound.unlinkLock live here

/-! ## Steps -/

theorem Sound.access (sound : world.Sound first) (live : (world.agents a).status = .live)
    (spared : ∀ waiting, (world.agents a).point = .waiting waiting → world.Spared store waiting)
    (now ino : Nat) : (world.access store a now ino).Sound first := by
  unfold World.access
  split
  · rename_i waiting here
    exact sound.wait live here (spared waiting here) now ino
  · rename_i lock holding here
    exact sound.hold live here now
  · exact sound

theorem Sound.abort (sound : world.Sound first) (live : (world.agents a).status = .live) :
    (world.abort store a).Sound first := by
  unfold World.abort
  split
  · exact sound.goto_finished live (.inr rfl)
  · exact sound.goto_finished live (.inr rfl)
  · exact sound

theorem Sound.fail (sound : world.Sound first) (live : (world.agents a).status = .live) :
    (world.fail a).Sound first := by
  unfold World.fail
  split
  · rename_i lock holding here
    split
    · exact sound.goto_holding live here trivial
    · exact sound
  · exact sound

/-- A store that begins, or begins a call, touches no file. -/
theorem Sound.begin (sound : world.Sound first) {agent : Agent} {alive : Nat → Bool}
    (known : ∀ pid, world.alive pid = true → alive pid = true) (own : alive agent.pid = true)
    (begins : agent.point = .idle ∨ agent.point = .waiting .opening) :
    Sound first
      { world with agents := Function.update world.agents a agent, alive := alive } := by
  have free (l : Nat) : ¬ Holds
      { world with agents := Function.update world.agents a agent, alive := alive } a l := by
    rintro ⟨-, holding, next⟩
    rcases begins with h | h <;> simp [h] at next
  refine sound.step (a := a) ?_ known ⟨?_, ?_⟩ ?_ sound.lock sound.chained
  · constructor
    · intro b other
      simp [other]
    · exact Nat.le_refl _
    · exact fun _ _ _ same => same
    · exact fun _ old => old
    · exact fun l _ holds => absurd holds (free l)
    · exact fun _ _ _ _ => ⟨rfl, rfl, rfl, rfl⟩
  · simpa using own
  · rcases begins with h | h <;> simp [h, Fits, Inspects]
  · exact fun l holds => absurd holds (free l)

theorem Sound.call (sound : world.Sound first) (live : (world.agents a).status = .live)
    (now : Nat) (operation : Option String → Change) :
    (world.call a now operation).Sound first := by
  unfold World.call
  dsimp only
  split
  · exact sound.begin (fun _ h => h) (sound.alive a live) (.inr rfl)
  · exact sound.begin (fun _ h => h) (sound.alive a live) (.inr rfl)
  · exact sound

theorem Sound.start (sound : world.Sound first) (a : Nat) : (world.start a).Sound first := by
  refine sound.begin (fun pid alive => ?_) (by simp) (.inl rfl)
  by_cases same : pid = (world.agents a).pid
  · simp [same]
  · simpa [same] using alive

theorem Sound.act (sound : world.Sound first) (a now : Nat) (action : Action)
    (spares : world.Spares store (.act a now action)) :
    (world.act store a now action).Sound first := by
  unfold World.act
  split
  · exact sound.start a
  · rename_i live
    exact sound.call live now _
  · rename_i live
    exact sound.access live (spares live) now _
  · rename_i live
    exact sound.abort live
  · rename_i live
    exact sound.fail live
  · exact sound

/-- A process that ends takes its stores with it. -/
theorem Sound.exit (sound : world.Sound first) (pid : Nat) : (world.exit pid).Sound first := by
  have agent (b : Nat) (live : ((world.exit pid).agents b).status = .live) :
      (world.exit pid).agents b = world.agents b ∧ (world.agents b).pid ≠ pid ∧
        (world.agents b).status = .live := by
    by_cases gone : (world.agents b).pid = pid ∧ (world.agents b).status = .live
    · simp [World.exit, gone] at live
    · have same : (world.exit pid).agents b = world.agents b := by simp [World.exit, gone]
      rw [same] at live
      exact ⟨same, fun h => gone ⟨h, live⟩, live⟩
  have held {b l : Nat} (holds : (world.exit pid).Holds b l) : world.Holds b l := by
    obtain ⟨same, -, live⟩ := agent b holds.1
    obtain ⟨-, holding, next⟩ := holds
    rw [same] at next
    exact ⟨live, holding, next⟩
  constructor
  · intro b live
    obtain ⟨same, other, lived⟩ := agent b live
    rw [same]
    simpa [World.exit, other] using sound.alive b lived
  · intro b live
    obtain ⟨same, -, lived⟩ := agent b live
    rw [same]
    exact (sound.fits b lived).transfer (by rw [same]) (by rw [same]) (Nat.le_refl _)
      (fun _ _ _ same => same) (fun _ old => old) (fun l _ free c holds => free c (held holds))
      fun _ _ _ => ⟨rfl, rfl, rfl, rfl⟩
  · exact fun b c l l' holds holds' => sound.alone b c l l' (held holds) (held holds')
  · exact sound.lock
  · intro b outcome ends
    refine sound.returned b outcome (ends ▸ ?_)
    simp only [World.exit]
    split <;> rfl
  · exact sound.chained

theorem Sound.occupy (sound : world.Sound first) (pid : Nat) :
    Sound first { world with alive := Function.update world.alive pid true } := by
  refine ⟨fun b live => ?_, fun b live => ?_, sound.alone, sound.lock, sound.returned,
    sound.chained⟩
  · by_cases same : (world.agents b).pid = pid
    · simp [same]
    · simpa [same] using sound.alive b live
  · exact (sound.fits b live).transfer rfl rfl (Nat.le_refl _) (fun _ _ _ same => same)
      (fun _ old => old) (fun _ _ free => free) fun _ _ _ => ⟨rfl, rfl, rfl, rfl⟩

theorem Sound.apply (sound : world.Sound first) {event : Event}
    (spares : world.Spares store event) : (world.apply store event).Sound first := by
  cases event with
  | act a now action => exact sound.act a now action spares
  | exit pid => exact sound.exit pid
  | occupy pid => exact sound.occupy pid

theorem Start.sound (start : world.Start) : world.Sound world.file := by
  have dead {a : Nat} (live : (world.agents a).status = .live) : False := by
    simp [start.unborn a] at live
  constructor
  · exact fun a live => (dead live).elim
  · exact fun a live => (dead live).elim
  · exact fun a b l l' holds _ => (dead holds.1).elim
  · exact start.lock
  · intro a outcome ends
    simp [start.idle a] at ends
  · rw [start.history]
    rfl

/-! ## Whole runs -/

theorem Sound.of_run {later : World} {events : List Event} (sound : world.Sound first)
    (run : Run (Guarded (Steps store) (Spares store)) world events later) : later.Sound first :=
  run.invariant (fun sound step => by
    obtain ⟨spares, rfl⟩ := step
    exact sound.apply spares) sound

theorem finish_history (world : World) (a : Nat) (outcome : Outcome) :
    (world.finish a outcome).history = world.history := by
  cases outcome <;> rfl

theorem wait_history (store : StoreKind) (world : World) (a now ino : Nat) (waiting : Waiting) :
    (world.wait store a now ino waiting).history = world.history := by
  cases waiting with
  | opening =>
      simp only [wait, World.openLock]
      split <;> rfl
  | inspecting =>
      simp only [wait]
      split <;> rfl
  | stating lock =>
      simp only [wait, World.inspectLock]
      split
      · split <;> rfl
      · split <;> rfl
  | parsing lock =>
      simp only [wait, World.parseLock]
      split <;> rfl
  | probing lock pid =>
      simp only [wait, World.probeLock]
      split
      · rfl
      · split <;> rfl
  | comparing lock =>
      simp only [wait, World.compareLock]
      split
      · rfl
      · split <;> rfl
  | reclaiming lock => rfl
  | pausing =>
      simp only [wait]
      split <;> rfl
  | sleeping => rfl

theorem hold_history (store : StoreKind) (world : World) (a now lock : Nat) (holding : Holding) :
    world.history <+: (world.hold store a now lock holding).history := by
  have same {other : World} (h : other.history = world.history) :
      world.history <+: other.history := ⟨[], by simp [h]⟩
  cases holding with
  | created =>
      simp only [hold]
      split <;> exact same rfl
  | writing => exact same rfl
  | reading =>
      simp only [hold]
      split <;> exact same rfl
  | checking version text =>
      simp only [hold]
      split <;> exact same rfl
  | updating before =>
      simp only [hold, World.update]
      split
      · exact same rfl
      · exact same rfl
      · exact same rfl
      · split <;> exact same rfl
  | publishing before after => exact ⟨_, rfl⟩
  | published after => exact same rfl
  | releasing outcome =>
      simp only [hold, World.release]
      split
      · exact same (finish_history ..)
      · split
        · exact same rfl
        · split <;> exact same (finish_history ..)
  | unlinking outcome => exact same (finish_history ..)

/-- What was published stays on record. -/
theorem history_apply (store : StoreKind) (world : World) (event : Event) :
    world.history <+: (world.apply store event).history := by
  have same {other : World} (h : other.history = world.history) :
      world.history <+: other.history := ⟨[], by simp [h]⟩
  cases event with
  | exit pid => exact same rfl
  | occupy pid => exact same rfl
  | act a now action =>
      simp only [apply, act]
      split
      · exact same rfl
      · simp only [call]
        split <;> exact same rfl
      · simp only [access]
        split
        · exact same (wait_history ..)
        · exact hold_history ..
        · exact same rfl
      · simp only [abort]
        split <;> exact same rfl
      · simp only [fail]
        split
        · split <;> exact same rfl
        · exact same rfl
      · exact same rfl

theorem history_of_run {later : World} {events : List Event}
    (run : Run (Guarded (Steps store) (Spares store)) world events later) :
    world.history <+: later.history :=
  run.invariant (I := fun later => world.history <+: later.history)
    (fun {before event _} reached step => by
      obtain ⟨-, rfl⟩ := step
      exact reached.trans (history_apply store before event)) (List.prefix_refl _)

/-- As long as no step hits a lock that has vanished or been replaced, one live process at a time
is in its section; whatever a call returned as published is in the file, or every text since
was made from the one before it; and a call gives up waiting only when its time is over or it
is aborted. -/
theorem lock_excludes (store : StoreKind) {world middle later : World} {before after : List Event}
    (start : world.Start)
    (run : Run (Guarded (Steps store) (Spares store)) world before middle)
    (rest : Run (Guarded (Steps store) (Spares store)) middle after later) :
    (∀ a b, (middle.agents a).InSection → (middle.agents b).InSection → a = b) ∧
    Chained world.file later.history later.file ∧
    (∀ a text, (middle.agents a).point = .finished (.returns (some text)) →
      ∃ older entry newer, later.history = older ++ entry :: newer ∧
        entry.agent = a ∧ entry.after = text ∧ Chained (some text) newer later.file) ∧
    ∀ a failure, (middle.agents a).point = .finished (.waitFails failure) →
      failure = .timedOut ∨ failure = .aborted := by
  have sound := start.sound.of_run run
  have chained := (sound.of_run rest).chained
  have holds {a : Nat} (inside : (middle.agents a).InSection) : ∃ lock, middle.Holds a lock := by
    obtain ⟨live, operates⟩ := inside
    cases next : (middle.agents a).point with
    | holding lock holding => exact ⟨lock, .point live next⟩
    | idle => simp [next, Point.operates] at operates
    | waiting waiting => simp [next, Point.operates] at operates
    | finished outcome => simp [next, Point.operates] at operates
  refine ⟨?_, chained, ?_, ?_⟩
  · intro a b inside inside'
    obtain ⟨lock, held⟩ := holds inside
    obtain ⟨lock', held'⟩ := holds inside'
    exact sound.alone a b lock lock' held held'
  · intro a text returned
    obtain ⟨entry, published, own, rfl⟩ := sound.returned a _ returned
    obtain ⟨older, newer, split⟩ :=
      List.append_of_mem ((history_of_run rest).subset published)
    rw [split] at chained
    exact ⟨older, entry, newer, split, own, rfl, chained.after⟩
  · exact fun a failure gaveUp => sound.returned a _ gaveUp

/-! ## Two reclaimers -/

/-- Every store is a process of its own, with the limits that the source sets. -/
def empty : World where
  lockName := none
  locks := fun _ => ⟨0, .unreadable, 0⟩
  created := 0
  file := none
  version := 0
  alive := fun _ => false
  agents := fun a => ⟨a + 10, 10000, 300000, .unborn, fun _ => .unchanged, 0, .idle⟩
  history := []

theorem start_empty : empty.Start where
  unborn _ := rfl
  idle _ := rfl
  lock := by rintro _ ⟨⟩
  history := rfl

/-- A store begins a call and makes some accesses. -/
def begins (a now accesses : Nat) (text : String) : List Event :=
  [.act a now .start, .act a now (.call fun _ => .publish text)] ++
    List.replicate accesses (.act a now (.access a))

/-- The accesses from the first look at an abandoned lock to its removal. -/
def inspection : StoreKind → Nat
  | .profile => 5
  | .credential => 6

/-- A process dies with the lock; two others inspect it, and the second removes the lock that
the first has created since. -/
def race (store : StoreKind) : List Event :=
  begins 0 0 3 "zero" ++ [.exit 10] ++ begins 1 400000 (inspection store) "one" ++
    begins 2 400000 (inspection store) "two" ++
    List.replicate 4 (.act 1 400000 (.access 1)) ++ List.replicate 4 (.act 2 400000 (.access 2))

/-- A profile store opens a lock that its holder then removes; a credential store compares the
lock that it inspected with the one that another store has created since. -/
def vanishing : StoreKind → List Event
  | .profile => begins 0 0 3 "zero" ++ begins 1 0 2 "one" ++
      List.replicate 6 (.act 0 0 (.access 0)) ++ [.act 1 0 (.access 1)]
  | .credential => begins 0 0 3 "zero" ++ [.exit 10] ++ begins 1 400000 6 "one" ++
      begins 2 400000 5 "two" ++
      List.replicate 2 (.act 1 400000 (.access 1)) ++ [.act 2 400000 (.access 2)]

/-- How the last call of a store ended. -/
def outcome? (world : World) (a : Nat) : Option Outcome :=
  match (world.agents a).point with
  | .finished outcome => some outcome
  | _ => none

theorem point_of_outcome? {outcome : Outcome} (found : world.outcome? a = some outcome) :
    (world.agents a).point = .finished outcome := by
  unfold outcome? at found
  split at found
  · rename_i next
    cases found
    exact next
  · cases found

/-- One live process at a time is in the section of the store, whatever the steps. -/
def Excludes (store : StoreKind) : Prop :=
  ∀ world events later, Start world → Run (Steps store) world events later →
    ∀ a b, (later.agents a).InSection → (later.agents b).InSection → a = b

/-- A call gives up waiting only when its time is over or it is aborted, whatever the steps. -/
def WaitsOut (store : StoreKind) : Prop :=
  ∀ world events later, Start world → Run (Steps store) world events later →
    ∀ a failure, (later.agents a).point = .finished (.waitFails failure) →
      failure = .timedOut ∨ failure = .aborted

theorem race_breaks (store : StoreKind) : ¬ Excludes store := by
  intro excludes
  have inside : (((race store).foldl (World.apply store) empty).agents 1).InSection ∧
      (((race store).foldl (World.apply store) empty).agents 2).InSection := by
    cases store <;> decide +kernel
  have one := excludes empty (race store) _ start_empty (Run.foldl ..) 1 2 inside.1 inside.2
  exact absurd one (by decide)

theorem vanishing_breaks (store : StoreKind) {a : Nat} {failure : WaitFailure}
    (fails : ((vanishing store).foldl (World.apply store) empty).outcome? a =
      some (.waitFails failure)) (other : failure ≠ .timedOut ∧ failure ≠ .aborted) :
    ¬ WaitsOut store := by
  intro waits
  rcases waits empty (vanishing store) _ start_empty (Run.foldl ..) a failure
    (point_of_outcome? fails) with late | aborted
  · exact other.1 late
  · exact other.2 aborted

/-- In either store two live processes can be in the section, and a waiter can fail although its
time is not over and nobody aborted it. -/
theorem lock_breaks : ¬ Excludes .profile ∧ ¬ WaitsOut .profile ∧
    ¬ Excludes .credential ∧ ¬ WaitsOut .credential := by
  refine ⟨race_breaks .profile, ?_, race_breaks .credential, ?_⟩
  · have fails : ((vanishing .profile).foldl (World.apply .profile) empty).outcome? 1 =
        some (.waitFails .unsafeLock) := by
      decide +kernel
    exact vanishing_breaks .profile fails (by decide)
  · have fails : ((vanishing .credential).foldl (World.apply .credential) empty).outcome? 2 =
        some (.waitFails .changed) := by
      decide +kernel
    exact vanishing_breaks .credential fails (by decide)

/-- Whether the step meets the condition, where the lock that is removed is the inspected one. -/
def spares (store : StoreKind) (world : World) : Event → Bool
  | .act a _ (.access _) =>
      match (world.agents a).point with
      | .waiting (.stating lock) => store = .credential || world.lockName = some lock
      | .waiting (.parsing lock) => (world.locks lock).metadata ≠ .unreadable
      | .waiting (.comparing lock) | .waiting (.reclaiming lock) => world.lockName = some lock
      | _ => true
  | _ => true

theorem spares_sound (store : StoreKind) (world : World) (event : Event)
    (ok : world.spares store event = true) : world.Spares store event := by
  cases event with
  | exit pid => trivial
  | occupy pid => trivial
  | act a now action =>
      cases action with
      | start => trivial
      | call operation => trivial
      | abort => trivial
      | fails => trivial
      | access ino =>
          intro live waiting next
          have same {lock current : Nat} (named : world.lockName = some lock)
              (held : current ∈ world.lockName) : current = lock :=
            Option.some.inj (held.symm.trans named)
          cases waiting with
          | stating lock =>
              rintro rfl
              simpa [spares, next] using ok
          | parsing lock => simpa [Spared, spares, next] using ok
          | comparing lock =>
              intro current held
              rw [same (by simpa [spares, next] using ok) held]
          | reclaiming lock =>
              intro current held
              exact .inl (same (by simpa [spares, next] using ok) held)
          | probing lock pid => trivial
          | opening => trivial
          | inspecting => trivial
          | pausing => trivial
          | sleeping => trivial

/-- A process dies with the lock of a credential store; another one inspects it, removes it
and publishes. -/
def recovery : List Event := begins 0 0 3 "zero" ++ [.exit 10] ++ begins 1 400000 16 "one"

theorem lock_excludes_recovery :
    ∃ older entry newer,
      (recovery.foldl (World.apply .credential) empty).history = older ++ entry :: newer ∧
        entry.agent = 1 ∧ entry.after = "one" ∧
        Chained (some "one") newer (recovery.foldl (World.apply .credential) empty).file := by
  have run : Run (Guarded (Steps .credential) (Spares .credential)) empty recovery
      (recovery.foldl (World.apply .credential) empty) :=
    Run.guarded_foldl (spares_sound .credential) (by decide +kernel)
  have returned : (recovery.foldl (World.apply .credential) empty).outcome? 1 =
      some (.returns (some "one")) := by
    decide +kernel
  exact (lock_excludes .credential start_empty run (.refl _)).2.2.1 1 "one"
    (point_of_outcome? returned)

end World

end AdCoder.PrivateStore
