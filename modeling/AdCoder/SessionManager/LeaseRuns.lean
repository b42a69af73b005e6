import AdCoder.SessionManager.Lease

/-!
# Processes that share a lease file

Manager processes and consoles start, call and crash; a call reads the file,
looks which processes live, and replaces the file, each at a time of its own.
While every replacement finds the file that its call read, and nobody releases
the lease of another live process, no two live processes hold the lease.
-/

namespace AdCoder.SessionManager

open Foundation

/-- How far a call of a process has got, with the file that it last saw. -/
inductive LeaseWork where
  | idle
  | probing (call : LeaseCall) (inode : Nat) (record : Option LeaseRecord)
  | writing (call : LeaseCall) (inode : Nat) (records : List LeaseRecord)
  deriving DecidableEq

/-- A process; it holds the lease from the return of an acquiring call to the return of
a releasing one. -/
structure LeaseProcess where
  hostname : String := ""
  pid : Nat := 0
  alive : Bool := false
  holds : Bool := false
  work : LeaseWork := .idle
  deriving DecidableEq

/-- The lease file of one project and the processes started so far. A replacement
renames a new file over the old one. -/
structure LeaseWorld where
  file : LeaseFile
  inode : Nat
  started : Nat
  processes : Nat → LeaseProcess

inductive LeaseEvent where
  | start (hostname : String) (pid : Nat)
  | crash (process : Nat)
  | read (process : Nat) (call : LeaseCall)
  | classify (process : Nat) (now : JsNumber) (ownerToken : String)
  | write (process : Nat)
  deriving DecidableEq

namespace LeaseWorld

/-- A file that some earlier process left, and no process yet. -/
def initial (file : LeaseFile) : LeaseWorld := ⟨file, 0, 0, fun _ => {}⟩

variable (world : LeaseWorld)

/-- `pidAlive` on a host. -/
def livesOn (hostname : String) (pid : Nat) : Bool :=
  (List.range world.started).any fun p =>
    (world.processes p).alive && (world.processes p).hostname == hostname &&
      (world.processes p).pid == pid

/-- `defaultLeaseIdentity` on a host. -/
def identity (hostname : String) (now : JsNumber) : LeaseIdentity where
  now := now
  hostIsLocal := (· == hostname)
  pidAlive := world.livesOn hostname

def setProcess (p : Nat) (process : LeaseProcess) : LeaseWorld :=
  { world with processes := Function.update world.processes p process }

/-- The call returns; what it acquired is held and what it released is not. -/
def returned (p : Nat) (call : LeaseCall) : LeaseWorld :=
  world.setProcess p { world.processes p with work := .idle, holds := call.isAcquire }

/-- The call goes on to the records it has to write, and returns after the last. -/
def proceed (p : Nat) (call : LeaseCall) (records : List LeaseRecord) : LeaseWorld :=
  if records = [] then world.returned p call
  else world.setProcess p
    { world.processes p with work := .writing call world.inode records }

def replaceFile (lease : LeaseRecord) : LeaseWorld :=
  { world with file := .record lease, inode := world.inode + 1 }

/-- `readLease` opens the call; an unreadable file ends it. -/
def readStep (p : Nat) (call : LeaseCall) : LeaseWorld :=
  match (world.processes p).work, readLease world.file with
  | .idle, .ok record => world.setProcess p
      { world.processes p with work := .probing call world.inode record }
  | _, _ => world

/-- The liveness of the recorded process decides what the call writes. The file may have
been replaced since it was read. -/
def classifyStep (p : Nat) (now : JsNumber) (ownerToken : String) : LeaseWorld :=
  match (world.processes p).work with
  | .probing call inode record =>
      let process := world.processes p
      let identity := world.identity process.hostname now
      match leaseWrites identity ⟨process.pid, process.hostname, ownerToken⟩
          (classifyLease identity record) call with
      | .error _ => world.setProcess p { process with work := .idle }
      | .ok [] => world.returned p call
      | .ok records => world.setProcess p { process with work := .writing call inode records }
  | _ => world

/-- `writeLease` of the next record. -/
def writeStep (p : Nat) : LeaseWorld :=
  match (world.processes p).work with
  | .writing call _ (lease :: records) => (world.replaceFile lease).proceed p call records
  | _ => world

def apply : LeaseEvent → LeaseWorld
  | .start hostname pid =>
      { world with
        started := world.started + 1
        processes := Function.update world.processes world.started
          { hostname := hostname, pid := pid, alive := true } }
  | .crash p => world.setProcess p { world.processes p with alive := false }
  | .read p call => if (world.processes p).alive then world.readStep p call else world
  | .classify p now ownerToken =>
      if (world.processes p).alive then world.classifyStep p now ownerToken else world
  | .write p => if (world.processes p).alive then world.writeStep p else world

def Steps (world : LeaseWorld) (event : LeaseEvent) (next : LeaseWorld) : Prop :=
  next = world.apply event

/-- A host gives a new process a pid that none of its live processes has. -/
def Lawful : LeaseEvent → Prop
  | .start hostname pid => world.livesOn hostname pid = false
  | _ => True

instance (event : LeaseEvent) : Decidable (world.Lawful event) := by
  cases event <;> unfold Lawful <;> infer_instance

/-! ## What the runs keep -/

/-- The process lives and has acquired the lease without releasing it. -/
def Holds (p : Nat) : Prop := (world.processes p).alive = true ∧ (world.processes p).holds = true

instance (p : Nat) : Decidable (world.Holds p) := by
  unfold Holds
  infer_instance

def Exclusive : Prop := ∀ p q, world.Holds p → world.Holds q → p = q

/-- The file is an unreleased lease of a live process other than this one. -/
def HeldByOther (p : Nat) : Prop :=
  match world.file with
  | .record lease => lease.releasedAt = none ∧ world.livesOn lease.host lease.pid = true ∧
      ¬ lease.Names (world.processes p).hostname (world.processes p).pid
  | _ => False

instance (p : Nat) : Decidable (world.HeldByOther p) := by
  unfold HeldByOther
  split <;> infer_instance

/-- A write finds the file that its call last saw, and a release writes over no lease of
another live process. -/
def Undisturbed : LeaseEvent → Prop
  | .write p =>
      match (world.processes p).work with
      | .writing call inode _ => inode = world.inode ∧
          (call.isAcquire = false → ¬ world.HeldByOther p)
      | _ => True
  | _ => True

instance (event : LeaseEvent) : Decidable (world.Undisturbed event) := by
  unfold Undisturbed
  split
  · split <;> infer_instance
  · infer_instance

/-! ## Lookups -/

section Lookups

variable {world : LeaseWorld} {p q : Nat} {process : LeaseProcess}

@[simp] theorem setProcess_self : (world.setProcess p process).processes p = process :=
  Function.update_self ..

theorem setProcess_of_ne (h : q ≠ p) :
    (world.setProcess p process).processes q = world.processes q :=
  Function.update_of_ne h ..

theorem livesOn_eq_true {hostname : String} {pid : Nat} :
    world.livesOn hostname pid = true ↔ ∃ p < world.started, (world.processes p).alive = true ∧
      (world.processes p).hostname = hostname ∧ (world.processes p).pid = pid := by
  simp [livesOn, and_assoc]

end Lookups

/-! ## The invariant -/

/-- What a process in the middle of a call knows: the record it read is the one on file,
and an acquiring call found no live holder, unless the file was replaced since. -/
structure Knows (process : LeaseProcess) : Prop where
  inode_le : ∀ call inode record, process.work = .probing call inode record →
    inode ≤ world.inode
  written_le : ∀ call inode records, process.work = .writing call inode records →
    inode ≤ world.inode
  seen : ∀ call record, process.work = .probing call world.inode record →
    readLease world.file = .ok record
  clear : ∀ call records, process.work = .writing call world.inode records →
    call.isAcquire = true → ∀ q, ¬ world.Holds q
  own : ∀ call inode records, process.work = .writing call inode records →
    call.isAcquire = true → ∃ marks lease, records = marks ++ [lease] ∧
      lease.Names process.hostname process.pid
  single : ∀ call inode records, process.work = .writing call inode records →
    call.isAcquire = false → ∃ lease, records = [lease]

/-- A live holder is named by the file, and live processes have distinct identities. -/
structure Sound : Prop where
  unstarted : ∀ p, world.started ≤ p → (world.processes p).alive = false
  distinct : ∀ p q, (world.processes p).alive = true → (world.processes q).alive = true →
    (world.processes p).hostname = (world.processes q).hostname →
    (world.processes p).pid = (world.processes q).pid → p = q
  named : ∀ p, world.Holds p → ∃ lease, world.file = .record lease ∧
    lease.Names (world.processes p).hostname (world.processes p).pid
  knows : ∀ p, (world.processes p).alive = true → world.Knows (world.processes p)

variable {world : LeaseWorld} {p q : Nat} {process : LeaseProcess}

theorem Knows.idle (h : process.work = .idle) : world.Knows process where
  inode_le _ _ _ at_work := by simp [h] at at_work
  written_le _ _ _ at_work := by simp [h] at at_work
  seen _ _ at_work := by simp [h] at at_work
  clear _ _ at_work := by simp [h] at at_work
  own _ _ _ at_work := by simp [h] at at_work
  single _ _ _ at_work := by simp [h] at at_work

/-- Knowledge stands while the file does and nobody new holds the lease. -/
theorem Knows.of_same {next : LeaseWorld} (knows : world.Knows process)
    (file : next.file = world.file) (inode : next.inode = world.inode)
    (holds : ∀ q, next.Holds q → world.Holds q) : next.Knows process where
  inode_le := by simpa only [inode] using knows.inode_le
  written_le := by simpa only [inode] using knows.written_le
  seen := by simpa only [inode, file] using knows.seen
  clear call records h acquire q held :=
    knows.clear call records (inode ▸ h) acquire q (holds q held)
  own := knows.own
  single := knows.single

/-- After a replacement nobody knows the file any more. -/
theorem Knows.of_replaced {next : LeaseWorld} (knows : world.Knows process)
    (inode : world.inode < next.inode) : next.Knows process where
  inode_le call i record h := Nat.le_trans (knows.inode_le call i record h) (Nat.le_of_lt inode)
  written_le call i records h :=
    Nat.le_trans (knows.written_le call i records h) (Nat.le_of_lt inode)
  seen call record h := absurd (knows.inode_le call _ record h) (Nat.not_le.mpr inode)
  clear call records h := absurd (knows.written_le call _ records h) (Nat.not_le.mpr inode)
  own := knows.own
  single := knows.single

/-- A live holder is the only process that its lease names. -/
theorem Sound.named_unique (sound : world.Sound) (held : world.Holds q) {lease : LeaseRecord}
    (file : world.file = .record lease) (alive : (world.processes p).alive = true)
    (names : lease.Names (world.processes p).hostname (world.processes p).pid) : p = q := by
  obtain ⟨named, file', names'⟩ := sound.named q held
  obtain rfl : lease = named := LeaseFile.record.inj (file.symm.trans file')
  exact sound.distinct p q alive held.1 (names.1.symm.trans names'.1)
    (names.2.1.symm.trans names'.2.1)

theorem Sound.exclusive (sound : world.Sound) : world.Exclusive := by
  intro p q hp hq
  obtain ⟨lease, file, names⟩ := sound.named p hp
  exact sound.named_unique hq file hp.1 names

theorem sound_initial (file : LeaseFile) : (initial file).Sound where
  unstarted _ _ := rfl
  distinct _ _ h := by cases h
  named _ h := by cases h.1
  knows _ h := by cases h

/-- What one process does without touching the file. -/
theorem Sound.setProcess (sound : world.Sound) (hostname : process.hostname =
    (world.processes p).hostname) (pid : process.pid = (world.processes p).pid)
    (alive : process.alive = true → (world.processes p).alive = true)
    (holds : process.holds = true → (world.processes p).holds = true)
    (knows : process.alive = true → world.Knows process) : (world.setProcess p process).Sound := by
  have other (q : Nat) : (world.setProcess p process).processes q = process ∧ q = p ∨
      (world.setProcess p process).processes q = world.processes q := by
    rcases eq_or_ne q p with rfl | h
    · exact .inl ⟨setProcess_self, rfl⟩
    · exact .inr (setProcess_of_ne h)
  have same (q : Nat) :
      ((world.setProcess p process).processes q).hostname = (world.processes q).hostname ∧
      ((world.setProcess p process).processes q).pid = (world.processes q).pid ∧
      (((world.setProcess p process).processes q).alive = true →
        (world.processes q).alive = true) ∧
      ((world.setProcess p process).Holds q → world.Holds q) := by
    unfold Holds
    rcases other q with ⟨h, rfl⟩ | h
    · rw [h]
      exact ⟨hostname, pid, alive, fun held => ⟨alive held.1, holds held.2⟩⟩
    · rw [h]
      exact ⟨rfl, rfl, id, id⟩
  refine ⟨fun q h => ?_, fun a b ha hb host pid => ?_, fun q held => ?_, fun q h => ?_⟩
  · exact Bool.eq_false_iff.mpr fun up => by
      simpa [sound.unstarted q h] using (same q).2.2.1 up
  · exact sound.distinct a b ((same a).2.2.1 ha) ((same b).2.2.1 hb)
      ((same a).1.symm.trans (host.trans (same b).1))
      ((same a).2.1.symm.trans (pid.trans (same b).2.1))
  · rw [(same q).1, (same q).2.1]
    exact sound.named q ((same q).2.2.2 held)
  · have knowing : world.Knows ((world.setProcess p process).processes q) := by
      rcases other q with ⟨heq, rfl⟩ | heq
      · rw [heq] at h ⊢
        exact knows h
      · rw [heq] at h ⊢
        exact sound.knows q h
    exact knowing.of_same rfl rfl fun r => (same r).2.2.2

/-! ## One step -/

theorem Sound.start (sound : world.Sound) {hostname : String} {pid : Nat}
    (free : world.livesOn hostname pid = false) :
    (world.apply (.start hostname pid)).Sound := by
  have fresh (q : Nat) (up : (world.processes q).alive = true) : q < world.started := by
    by_contra h
    simp [sound.unstarted q (Nat.le_of_not_lt h)] at up
  have unclaimed (q : Nat) (up : (world.processes q).alive = true)
      (host : (world.processes q).hostname = hostname) (same : (world.processes q).pid = pid) :
      False := by
    have : world.livesOn hostname pid = true :=
      livesOn_eq_true.mpr ⟨q, fresh q up, up, host, same⟩
    simp [free] at this
  have new : (world.apply (.start hostname pid)).processes world.started =
      { hostname := hostname, pid := pid, alive := true } := Function.update_self ..
  have old (q : Nat) (h : q ≠ world.started) :
      (world.apply (.start hostname pid)).processes q = world.processes q :=
    Function.update_of_ne h ..
  have holds (q : Nat) (held : (world.apply (.start hostname pid)).Holds q) :
      q ≠ world.started ∧ world.Holds q := by
    have hne : q ≠ world.started := by
      rintro rfl
      simp [Holds, new] at held
    exact ⟨hne, by rwa [Holds, old q hne] at held⟩
  refine ⟨fun q h => ?_, fun a b ha hb host same => ?_, fun q held => ?_, fun q h => ?_⟩
  · rw [old q (Nat.ne_of_gt h)]
    exact sound.unstarted q (Nat.le_of_lt h)
  · rcases eq_or_ne a world.started with rfl | hna
    · rcases eq_or_ne b world.started with rfl | hnb
      · rfl
      · rw [old b hnb] at hb host same
        rw [new] at host same
        exact (unclaimed b hb host.symm same.symm).elim
    · rw [old a hna] at ha host same
      rcases eq_or_ne b world.started with rfl | hnb
      · rw [new] at host same
        exact (unclaimed a ha host same).elim
      · rw [old b hnb] at hb host same
        exact sound.distinct a b ha hb host same
  · obtain ⟨hne, before⟩ := holds q held
    rw [old q hne]
    exact sound.named q before
  · have knowing : world.Knows ((world.apply (.start hostname pid)).processes q) := by
      rcases eq_or_ne q world.started with rfl | hne
      · rw [new]
        exact .idle rfl
      · rw [old q hne] at h ⊢
        exact sound.knows q h
    exact knowing.of_same rfl rfl fun r held => (holds r held).2

theorem Sound.readStep (sound : world.Sound) (p : Nat) (call : LeaseCall) :
    (world.readStep p call).Sound := by
  unfold LeaseWorld.readStep
  split
  · rename_i record idle found
    refine sound.setProcess rfl rfl id id fun _ => ?_
    constructor
    · rintro c i r h
      cases h
      exact Nat.le_refl _
    · rintro c i r h
      cases h
    · rintro c r h
      cases h
      exact found
    · rintro c r h
      cases h
    · rintro c i r h
      cases h
    · rintro c i r h
      cases h
  · exact sound

/-- An acquiring call that may write has found no live holder of the file it read. -/
theorem Sound.no_holder (sound : world.Sound) {record : Option LeaseRecord} {now : JsNumber}
    (seen : readLease world.file = .ok record)
    (free : (classifyLease (world.identity (world.processes p).hostname now) record).state ≠ .live) :
    ∀ q, ¬ world.Holds q := by
  intro q held
  obtain ⟨lease, file, names⟩ := sound.named q held
  refine free (classifyLease_live.mpr ⟨lease, ?_, names.2.2, fun here => ?_⟩)
  · rw [file] at seen
    exact (Except.ok.inj seen).symm
  · have local_host : lease.host = (world.processes p).hostname := by simpa [identity] using here
    refine livesOn_eq_true.mpr ⟨q, ?_, held.1, names.1.symm.trans local_host, names.2.1.symm⟩
    by_contra h
    simpa [sound.unstarted q (Nat.le_of_not_lt h)] using held.1

theorem Sound.classifyStep (sound : world.Sound) (up : (world.processes p).alive = true)
    (now : JsNumber) (ownerToken : String) : (world.classifyStep p now ownerToken).Sound := by
  unfold LeaseWorld.classifyStep
  split
  · rename_i call inode record probing
    have knows := sound.knows p up
    dsimp only
    split
    · exact sound.setProcess rfl rfl id id fun _ => .idle rfl
    · rename_i nothing
      have release : call.isAcquire = false := by
        by_contra acquire
        obtain ⟨-, marks, lease, heq, -⟩ :=
          leaseWrites_acquire nothing (by simpa using acquire)
        simp at heq
      exact sound.setProcess rfl rfl id (fun h => by simp [release] at h) fun _ => .idle rfl
    · rename_i records _ writes
      refine sound.setProcess rfl rfl id id fun _ => ?_
      constructor
      · rintro c i r h
        cases h
      · rintro c i r h
        cases h
        exact knows.inode_le _ _ _ probing
      · rintro c r h
        cases h
      · rintro c r h acquire
        cases h
        exact sound.no_holder (knows.seen _ _ probing) (leaseWrites_acquire writes acquire).1
      · rintro c i r h acquire
        cases h
        exact (leaseWrites_acquire writes acquire).2
      · rintro c i r h release
        cases h
        exact (leaseWrites_release writes release).resolve_left ‹_›
  · exact sound

/-- A process that replaces the file while no other process holds the lease. -/
theorem Sound.replaceFile (sound : world.Sound) {lease : LeaseRecord}
    (nobody : ∀ q, q ≠ p → ¬ world.Holds q)
    (hostname : process.hostname = (world.processes p).hostname)
    (pid : process.pid = (world.processes p).pid) (up : (world.processes p).alive = true)
    (named : process.holds = true → lease.Names process.hostname process.pid)
    (knows : ((world.replaceFile lease).setProcess p process).Knows process) :
    ((world.replaceFile lease).setProcess p process).Sound := by
  have self : ((world.replaceFile lease).setProcess p process).processes p = process :=
    setProcess_self
  have old (q : Nat) (h : q ≠ p) :
      ((world.replaceFile lease).setProcess p process).processes q = world.processes q :=
    setProcess_of_ne h
  have same (q : Nat) : (((world.replaceFile lease).setProcess p process).processes q).hostname =
        (world.processes q).hostname ∧
      (((world.replaceFile lease).setProcess p process).processes q).pid =
        (world.processes q).pid ∧
      ((((world.replaceFile lease).setProcess p process).processes q).alive = true →
        (world.processes q).alive = true) := by
    rcases eq_or_ne q p with rfl | h
    · rw [self]
      exact ⟨hostname, pid, fun _ => up⟩
    · rw [old q h]
      exact ⟨rfl, rfl, id⟩
  refine ⟨fun q h => ?_, fun a b ha hb host ids => ?_, fun q held => ?_, fun q h => ?_⟩
  · exact Bool.eq_false_iff.mpr fun h' => by
      simpa [sound.unstarted q h] using (same q).2.2 h'
  · exact sound.distinct a b ((same a).2.2 ha) ((same b).2.2 hb)
      ((same a).1.symm.trans (host.trans (same b).1))
      ((same a).2.1.symm.trans (ids.trans (same b).2.1))
  · rcases eq_or_ne q p with rfl | hne
    · rw [Holds, self] at held
      rw [self]
      exact ⟨lease, rfl, named held.2⟩
    · rw [Holds, old q hne] at held
      exact absurd held (nobody q hne)
  · rcases eq_or_ne q p with rfl | hne
    · rwa [self]
    · rw [old q hne] at h ⊢
      exact (sound.knows q h).of_replaced (Nat.lt_succ_self _)

/-- Nobody else holds the lease when a call writes undisturbed. -/
theorem Sound.nobody_else (sound : world.Sound) (up : (world.processes p).alive = true)
    {call : LeaseCall} {inode : Nat} {records : List LeaseRecord}
    (writing : (world.processes p).work = .writing call inode records)
    (quiet : world.Undisturbed (.write p)) : ∀ q, q ≠ p → ¬ world.Holds q := by
  intro q hne held
  simp only [Undisturbed, writing] at quiet
  obtain ⟨rfl, release⟩ := quiet
  cases acquire : call.isAcquire with
  | true => exact (sound.knows p up).clear call records writing acquire q held
  | false =>
      obtain ⟨lease, file, names⟩ := sound.named q held
      apply release acquire
      rw [HeldByOther, file]
      refine ⟨names.2.2, livesOn_eq_true.mpr ⟨q, ?_, held.1, names.1.symm, names.2.1.symm⟩,
        fun own => hne (sound.named_unique held file up own).symm⟩
      by_contra h
      simpa [sound.unstarted q (Nat.le_of_not_lt h)] using held.1

theorem Sound.writeStep (sound : world.Sound) (up : (world.processes p).alive = true)
    (quiet : world.Undisturbed (.write p)) : (world.writeStep p).Sound := by
  unfold LeaseWorld.writeStep
  split
  · rename_i call inode lease records writing
    have knows := sound.knows p up
    have nobody := sound.nobody_else up writing quiet
    unfold proceed
    split
    · rename_i last
      subst last
      refine sound.replaceFile nobody rfl rfl up (fun acquire => ?_) (.idle rfl)
      obtain ⟨marks, own, heq, names⟩ := knows.own _ _ _ writing acquire
      cases marks with
      | nil =>
          obtain rfl : lease = own := by simpa using heq
          exact names
      | cons mark marks => simp at heq
    · rename_i more
      have acquire : call.isAcquire = true := by
        by_contra release
        obtain ⟨only, heq⟩ := knows.single _ _ _ writing (by simpa using release)
        simp [more] at heq
      have current : inode = world.inode := by
        simp only [Undisturbed, writing] at quiet
        exact quiet.1
      subst current
      have nobody_at_all := knows.clear _ _ writing acquire
      have none_next (q : Nat) : ¬ ((world.replaceFile lease).setProcess p
          { world.processes p with
            work := .writing call (world.replaceFile lease).inode records }).Holds q := by
        intro held
        apply nobody_at_all q
        rcases eq_or_ne q p with rfl | hne
        · rwa [Holds, setProcess_self] at held
        · rwa [Holds, setProcess_of_ne hne] at held
      refine sound.replaceFile nobody rfl rfl up
        (fun holds => absurd ⟨up, holds⟩ (nobody_at_all p)) ?_
      constructor
      · rintro c i r h
        cases h
      · rintro c i r h
        cases h
        exact Nat.le_refl _
      · rintro c r h
        cases h
      · rintro c r h _
        exact none_next
      · rintro c i r h _
        cases h
        obtain ⟨marks, own, heq, names⟩ := knows.own _ _ _ writing acquire
        cases marks with
        | nil =>
            obtain ⟨-, rfl⟩ : lease = own ∧ records = [] := by simpa using heq
            exact absurd rfl more
        | cons mark marks =>
            obtain ⟨-, rfl⟩ : lease = mark ∧ records = marks ++ [own] := by simpa using heq
            exact ⟨marks, own, rfl, names⟩
      · rintro c i r h release
        cases h
        simp [acquire] at release
  · exact sound

theorem Sound.apply (sound : world.Sound) {event : LeaseEvent} (lawful : world.Lawful event)
    (quiet : world.Undisturbed event) : (world.apply event).Sound := by
  cases event with
  | start hostname pid => exact sound.start lawful
  | crash p =>
      refine sound.setProcess rfl rfl (fun h => by cases h) id (fun h => by cases h)
  | read p call =>
      simp only [LeaseWorld.apply]
      split
      · exact sound.readStep p call
      · exact sound
  | classify p now ownerToken =>
      simp only [LeaseWorld.apply]
      split
      · exact sound.classifyStep ‹_› now ownerToken
      · exact sound
  | write p =>
      simp only [LeaseWorld.apply]
      split
      · exact sound.writeStep ‹_› quiet
      · exact sound

/-! ## Runs -/

/-- While calls write undisturbed, at most one live process holds the lease. -/
theorem lease_exclusive {file : LeaseFile} {labels : List LeaseEvent} {world : LeaseWorld}
    (run : Run (Guarded Steps fun world event => world.Lawful event ∧ world.Undisturbed event)
      (initial file) labels world) : world.Exclusive := by
  have sound : world.Sound := by
    refine run.invariant (I := Sound) ?_ (sound_initial file)
    rintro a event b sound ⟨⟨lawful, quiet⟩, rfl⟩
    exact sound.apply lawful quiet
  exact sound.exclusive

/-- The first process dies with the lease; the second finds it stale and takes it over. -/
def takeoverScript : List LeaseEvent :=
  [.start "host" 10, .start "host" 11,
   .read 0 (.acquireManagerLease "sess-a"), .classify 0 1 "sm:first", .write 0,
   .read 1 (.acquireManagerLease "sess-a"), .classify 1 2 "sm:refused", .crash 0,
   .read 1 (.acquireManagerLease "sess-a"), .classify 1 3 "sm:second", .write 1, .write 1]

theorem lease_exclusive_takeoverScript :
    (takeoverScript.foldl apply (initial .absent)).Exclusive ∧
      (takeoverScript.foldl apply (initial .absent)).Holds 1 :=
  ⟨lease_exclusive (Run.guarded_foldl (fun _ _ => of_decide_eq_true)
    (by decide +kernel : Run.checked apply
      (fun world event => decide (world.Lawful event ∧ world.Undisturbed event))
      (initial .absent) takeoverScript = true)), by decide +kernel⟩

/-- Both processes read the file before either writes it. -/
def raceScript : List LeaseEvent :=
  [.start "host" 10, .start "host" 11,
   .read 0 (.acquireManagerLease "sess-a"), .read 1 (.acquireManagerLease "sess-a"),
   .classify 0 1 "sm:first", .classify 1 1 "sm:second", .write 0, .write 1]

theorem lease_exclusive_refuted :
    ¬ ∀ file labels world, Run (Guarded Steps Lawful) (initial file) labels world →
      world.Exclusive := by
  intro exclusive
  have run := Run.guarded_foldl (fun _ _ => of_decide_eq_true)
    (by decide +kernel : Run.checked apply (fun world event => decide (world.Lawful event))
      (initial .absent) raceScript = true)
  have both : (raceScript.foldl apply (initial .absent)).Holds 0 ∧
      (raceScript.foldl apply (initial .absent)).Holds 1 := by decide +kernel
  exact absurd (exclusive _ _ _ run 0 1 both.1 both.2) (by decide)

end LeaseWorld

end AdCoder.SessionManager
