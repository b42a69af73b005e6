import AdCoder.ProjectOperations.Documentation

/-!
# Runs of documentation appends

While every reclaim removes the lock that it read or one that nobody holds, the
holder of the lock is the only process that works on the destination. A lock
that was written to its end can always be reclaimed after its creator died.
-/

namespace AdCoder.ProjectOperations

open Foundation

/-! ## Markers and blocks -/

namespace DocumentationProposal

variable (proposal other : DocumentationProposal)

theorem plain_not_mem {x : Char} (h : isIdentifierChar x = false) : x ∉ proposal.effectId := by
  intro hx
  simp [proposal.plain x hx] at h

theorem break_not_mem_marker : '\n' ∉ proposal.marker := by
  have := proposal.plain_not_mem (x := '\n') (by decide)
  simp only [marker, List.mem_append, not_or]
  exact ⟨by decide, by decide, this, by decide⟩

theorem marker_ne_nil : proposal.marker ≠ [] := by
  simp [marker, commentStart]

/-- The first character of a marker occurs nowhere else in it. -/
theorem marker_eq_cons : ∃ tail, proposal.marker = '<' :: tail ∧ '<' ∉ tail := by
  have := proposal.plain_not_mem (x := '<') (by decide)
  refine ⟨commentStart.tail ++ (" ad-coder:".toList ++ (proposal.effectId ++ " -->".toList)),
    rfl, ?_⟩
  simp only [List.mem_append, not_or]
  exact ⟨by decide, by decide, this, by decide⟩

/-- Words end where their separator stands. -/
theorem eq_of_prefix_cons {b : Char} {front front' back back' : List Char} (h : b ∉ front)
    (h' : b ∉ front') (pre : front ++ b :: back <+: front' ++ b :: back') : front = front' := by
  induction front generalizing front' with
  | nil =>
      cases front' with
      | nil => rfl
      | cons y front' =>
          obtain ⟨rfl, _⟩ := List.cons_prefix_cons.mp pre
          simp at h'
  | cons x front ih =>
      cases front' with
      | nil =>
          obtain ⟨rfl, _⟩ := List.cons_prefix_cons.mp pre
          simp at h
      | cons y front' =>
          obtain ⟨rfl, rest⟩ := List.cons_prefix_cons.mp pre
          rw [ih (List.not_mem_of_not_mem_cons h) (List.not_mem_of_not_mem_cons h') rest]

theorem marker_prefix_iff :
    proposal.marker <+: other.marker ↔ proposal.effectId = other.effectId := by
  constructor
  · intro pre
    have rest := (List.prefix_append_right_inj _).mp ((List.prefix_append_right_inj _).mp pre)
    exact eq_of_prefix_cons (proposal.plain_not_mem (by decide)) (other.plain_not_mem (by decide))
      rest
  · intro same
    rw [marker, marker, same]

theorem occurrences_marker : occurrences proposal.marker other.marker =
    if proposal.effectId = other.effectId then 1 else 0 := by
  obtain ⟨word, hword, _⟩ := proposal.marker_eq_cons
  obtain ⟨tail, htail, once⟩ := other.marker_eq_cons
  have inner : occurrences proposal.marker tail = 0 := by
    rw [hword]
    exact occurrences_of_not_mem once
  rw [htail, occurrences_cons, inner, ← htail]
  simp only [List.isPrefixOf_iff_prefix, marker_prefix_iff, Nat.add_zero]

theorem occurrences_content : occurrences proposal.marker other.content = 0 := by
  have pre : commentStart <+: proposal.marker := List.prefix_append _ _
  have le := occurrences_le_of_word pre other.content
  rw [other.unmarked] at le
  omega

/-- An appended block adds its own marker once and no other marker. -/
theorem occurrences_append_block (text : List Char) :
    occurrences proposal.marker (text ++ other.block text) = occurrences proposal.marker text +
      if proposal.effectId = other.effectId then 1 else 0 := by
  have body : occurrences proposal.marker (other.marker ++ '\n' :: other.content) =
      if proposal.effectId = other.effectId then 1 else 0 := by
    rw [occurrences_append_cons proposal.marker_ne_nil proposal.break_not_mem_marker,
      occurrences_marker, occurrences_content, Nat.add_zero]
  have separated (front back : List Char) : occurrences proposal.marker (front ++ '\n' :: back) =
      occurrences proposal.marker front + occurrences proposal.marker back :=
    occurrences_append_cons proposal.marker_ne_nil proposal.break_not_mem_marker front back
  rw [← body, block]
  by_cases ends : text.getLast? = some '\n' ∨ text = []
  · rw [if_pos ends, List.nil_append]
    rcases ends with last | rfl
    · obtain ⟨front, rfl⟩ := List.getLast?_eq_some_iff.mp last
      rw [List.append_assoc, List.singleton_append, separated front, separated front,
        occurrences_nil, Nat.add_zero]
    · rw [List.nil_append, occurrences_nil, Nat.zero_add]
  · rw [if_neg ends, List.singleton_append, separated text]

end DocumentationProposal

/-! ## The invariant -/

namespace DocumentationWorld

variable {format : NumberFormat} {start : List Char} {world : DocumentationWorld}
  {pid other : Pid} {proposal : DocumentationProposal} {point : AppendPoint} {inode : Nat}

theorem pending_finish {call : AppendCall} (h : (world.finish pid).pending other = some call) :
    other ≠ pid ∧ world.pending other = some call := by
  simp only [finish, Function.update_apply] at h
  split_ifs at h with heq
  exact ⟨heq, h⟩

theorem pending_proceed {call : AppendCall}
    (h : (world.proceed pid proposal point).pending other = some call) :
    (other = pid ∧ call = ⟨proposal, point⟩) ∨ (other ≠ pid ∧ world.pending other = some call) := by
  simp only [proceed, Function.update_apply] at h
  split_ifs at h with heq
  · exact Or.inl ⟨heq, (Option.some.inj h).symm⟩
  · exact Or.inr ⟨heq, h⟩

theorem holds_finish : (world.finish pid).Holds other inode ↔
    other ≠ pid ∧ world.Holds other inode := by
  by_cases same : other = pid
  · simp [Holds, finish, same]
  · simp [Holds, finish, same]

theorem holds_proceed : (world.proceed pid proposal point).Holds other inode ↔
    (other = pid ∧ point.held = some inode) ∨ (other ≠ pid ∧ world.Holds other inode) := by
  by_cases same : other = pid
  · simp [Holds, proceed, same]
  · simp [Holds, proceed, same]

end DocumentationWorld

/-- What has been written of the lock text at a point where the lock is held. -/
def AppendPoint.textOf (full : List Char) : AppendPoint → List Char
  | .writing _ written => full.take written
  | _ => full

/-- What a call knows at its next step. -/
def PointSound (world : DocumentationWorld) (call : AppendCall) : Prop :=
  match call.point with
  | .probing _ inode holder =>
      inode < world.nextInode ∧ ∀ lock, world.lock = some lock → lock.inode = inode →
        lock.owner = holder
  | .reclaiming _ inode => inode < world.nextInode ∧ ∀ pid, ¬ world.Holds pid inode
  | .appending _ current =>
      current = world.text ∧ includes call.proposal.marker current = false
  | _ => True

structure DocumentationSound (format : NumberFormat) (start : List Char)
    (world : DocumentationWorld) : Prop where
  alive : ∀ pid call, world.pending pid = some call → world.alive pid = true
  fresh : ∀ lock, world.lock = some lock → lock.inode < world.nextInode
  written : ∀ lock, world.lock = some lock →
    ∃ n, lock.text = (lockText format lock.owner).take n
  held : ∀ pid call inode, world.pending pid = some call → call.point.held = some inode →
    world.lock = some ⟨inode, pid, call.point.textOf (lockText format pid)⟩
  points : ∀ pid call, world.pending pid = some call → PointSound world call
  once : ∀ proposal : DocumentationProposal, occurrences proposal.marker world.text ≤
    max 1 (occurrences proposal.marker start)
  complete : ∀ lock, world.lock = some lock →
    world.Holds lock.owner lock.inode ∨ lockHolder format lock.text = some lock.owner

namespace DocumentationSound

open DocumentationWorld

variable {format : NumberFormat} {start : List Char} {world : DocumentationWorld}
  {pid other : Pid} {proposal : DocumentationProposal} {point : AppendPoint} {inode : Nat}

theorem start_sound (start : List Char) (alive : Pid → Bool) :
    DocumentationSound format start (DocumentationWorld.start start alive) := by
  constructor
  case once => exact fun _ => Nat.le_max_right _ _
  all_goals simp [DocumentationWorld.start]

/-- The lock has one holder. -/
theorem unique (sound : DocumentationSound format start world) {first second : Nat}
    (h : world.Holds pid first) (h' : world.Holds other second) :
    pid = other ∧ first = second := by
  obtain ⟨call, hcall, hheld⟩ := h
  obtain ⟨call', hcall', hheld'⟩ := h'
  have lock := sound.held pid call first hcall hheld
  rw [sound.held other call' second hcall' hheld'] at lock
  have same := Option.some.inj lock
  exact ⟨(congrArg LockFile.owner same).symm, (congrArg LockFile.inode same).symm⟩

/-- A holder's lock is the lock there is. -/
theorem inode_lt (sound : DocumentationSound format start world) (h : world.Holds pid inode) :
    inode < world.nextInode := by
  obtain ⟨call, hcall, hheld⟩ := h
  exact sound.fresh _ (sound.held pid call inode hcall hheld)

/-- A step that neither takes nor releases the lock and changes no file. -/
theorem proceed (sound : DocumentationSound format start world) (alive : world.alive pid = true)
    (same : ∀ inode, point.held = some inode ↔ world.Holds pid inode)
    (text : ∀ inode, point.held = some inode →
      world.lock = some ⟨inode, pid, point.textOf (lockText format pid)⟩)
    (next : PointSound world ⟨proposal, point⟩) :
    DocumentationSound format start (world.proceed pid proposal point) := by
  have holds (other : Pid) (inode : Nat) :
      (world.proceed pid proposal point).Holds other inode ↔ world.Holds other inode := by
    rw [holds_proceed, same]
    by_cases heq : other = pid
    · simp [heq]
    · simp [heq]
  have keep {call : AppendCall} (h : PointSound world call) :
      PointSound (world.proceed pid proposal point) call := by
    obtain ⟨proposal', point'⟩ := call
    cases point' with
    | reclaiming attempt inode => exact ⟨h.1, fun other => mt (holds other inode).mp (h.2 other)⟩
    | _ => exact h
  constructor
  · intro other call hcall
    rcases pending_proceed hcall with ⟨rfl, _⟩ | ⟨_, hcall⟩
    · exact alive
    · exact sound.alive other call hcall
  · exact sound.fresh
  · exact sound.written
  · intro other call inode hcall hheld
    rcases pending_proceed hcall with ⟨rfl, rfl⟩ | ⟨_, hcall⟩
    · exact text inode hheld
    · exact sound.held other call inode hcall hheld
  · intro other call hcall
    rcases pending_proceed hcall with ⟨_, rfl⟩ | ⟨_, hcall⟩
    · exact keep next
    · exact keep (sound.points other call hcall)
  · exact sound.once
  · intro lock hlock
    rw [holds]
    exact sound.complete lock hlock

/-- A process may leave its call unless it leaves an unreadable lock. -/
theorem leave (sound : DocumentationSound format start world) {alive : Pid → Bool}
    (others : ∀ other, other ≠ pid → alive other = world.alive other)
    (readable : ∀ lock, world.lock = some lock → world.Holds pid lock.inode →
      lockHolder format lock.text = some lock.owner) :
    DocumentationSound format start { world.finish pid with alive := alive } := by
  constructor
  · intro other call hcall
    obtain ⟨ne, hcall⟩ := pending_finish hcall
    exact (others other ne).trans (sound.alive other call hcall)
  · exact sound.fresh
  · exact sound.written
  · intro other call inode hcall hheld
    exact sound.held other call inode (pending_finish hcall).2 hheld
  · intro other call hcall
    have before := sound.points other call (pending_finish hcall).2
    obtain ⟨proposal', point'⟩ := call
    cases point' with
    | reclaiming attempt inode =>
        exact ⟨before.1, fun other h => before.2 other (holds_finish.mp h).2⟩
    | _ => exact before
  · exact sound.once
  · intro lock hlock
    rcases sound.complete lock hlock with held | named
    · by_cases owner : lock.owner = pid
      · exact Or.inr (readable lock hlock (owner ▸ held))
      · exact Or.inl (holds_finish.mpr ⟨owner, held⟩)
    · exact Or.inr named

theorem finish (sound : DocumentationSound format start world)
    (free : ∀ inode, ¬ world.Holds pid inode) :
    DocumentationSound format start (world.finish pid) :=
  sound.leave (fun _ _ => rfl) fun _ _ held => absurd held (free _)

/-- Text may be appended while no process is about to append what it read. -/
theorem append (sound : DocumentationSound format start world) {text : List Char}
    (quiet : ∀ other call inode current, world.pending other = some call →
      call.point ≠ .appending inode current)
    (once : ∀ proposal : DocumentationProposal,
      occurrences proposal.marker (world.text ++ text) ≤
        max 1 (occurrences proposal.marker start)) :
    DocumentationSound format start (world.append text) := by
  constructor
  case once => exact once
  case points =>
    intro other call hcall
    have before := sound.points other call hcall
    have apart := quiet other call
    obtain ⟨proposal', point'⟩ := call
    cases point' with
    | appending inode current => exact absurd rfl (apart inode current hcall)
    | _ => exact before
  · exact sound.alive
  · exact sound.fresh
  · exact sound.written
  · exact sound.held
  · exact sound.complete

/-- A lock that nobody holds may be removed. -/
theorem unlinkLock (sound : DocumentationSound format start world)
    (free : ∀ other inode, ¬ world.Holds other inode) :
    DocumentationSound format start world.unlinkLock := by
  constructor
  case held =>
    intro other call inode hcall hheld
    exact absurd ⟨call, hcall, hheld⟩ (free other inode)
  case points =>
    intro other call hcall
    have before := sound.points other call hcall
    obtain ⟨proposal', point'⟩ := call
    cases point' with
    | probing attempt inode holder =>
        refine ⟨before.1, fun lock hlock => ?_⟩
        cases hlock
    | _ => exact before
  case once => exact sound.once
  case alive => exact sound.alive
  all_goals
    intro lock hlock
    cases hlock

/-- A lock may be created when there is none. -/
theorem createLock (sound : DocumentationSound format start world) (none : world.lock = none)
    (alive : world.alive pid = true) :
    DocumentationSound format start
      ((world.createLock pid).proceed pid proposal (.writing world.nextInode 0)) := by
  have free (other : Pid) (inode : Nat) : ¬ world.Holds other inode := by
    rintro ⟨call, hcall, hheld⟩
    have := sound.held other call inode hcall hheld
    rw [none] at this
    cases this
  constructor
  · intro other call hcall
    rcases pending_proceed hcall with ⟨rfl, _⟩ | ⟨_, hcall⟩
    · exact alive
    · exact sound.alive other call hcall
  · intro lock hlock
    obtain rfl := Option.some.inj hlock
    exact Nat.lt_succ_self _
  · intro lock hlock
    obtain rfl := Option.some.inj hlock
    exact ⟨0, rfl⟩
  · intro other call inode hcall hheld
    rcases pending_proceed hcall with ⟨rfl, rfl⟩ | ⟨_, hcall⟩
    · obtain rfl := Option.some.inj hheld
      rfl
    · exact absurd ⟨call, hcall, hheld⟩ (free other inode)
  · intro other call hcall
    rcases pending_proceed hcall with ⟨_, rfl⟩ | ⟨_, hcall⟩
    · trivial
    · have before := sound.points other call hcall
      obtain ⟨proposal', point'⟩ := call
      cases point' with
      | probing attempt inode holder =>
          refine ⟨Nat.lt_succ_of_lt before.1, fun lock hlock same => ?_⟩
          obtain rfl := Option.some.inj hlock
          exact absurd same (Nat.ne_of_gt before.1)
      | reclaiming attempt inode =>
          refine ⟨Nat.lt_succ_of_lt before.1, fun other held => ?_⟩
          rcases holds_proceed.mp held with ⟨_, hheld⟩ | ⟨_, held⟩
          · exact Nat.ne_of_gt before.1 (Option.some.inj hheld)
          · exact free other inode held
      | _ => exact before
  · exact sound.once
  · intro lock hlock
    obtain rfl := Option.some.inj hlock
    exact Or.inl (holds_proceed.mpr (Or.inl ⟨rfl, rfl⟩))

/-- The holder may write more of its lock. -/
theorem writeLock (sound : DocumentationSound format start world) {call : AppendCall} {next : Nat}
    (pending : world.pending pid = some call) (before : call.point.held = some inode)
    (after : point.held = some inode)
    (text : point.textOf (lockText format pid) = (lockText format pid).take next)
    (quiet : ∀ world', PointSound world' ⟨proposal, point⟩) :
    DocumentationSound format start
      ((world.writeLock inode ((lockText format pid).take next)).proceed pid proposal point) := by
  have holder : world.Holds pid inode := ⟨call, pending, before⟩
  have old := sound.held pid call inode pending before
  have lock : (world.writeLock inode ((lockText format pid).take next)).lock =
      some ⟨inode, pid, (lockText format pid).take next⟩ := by
    simp [DocumentationWorld.writeLock, old]
  have only {lock' : LockFile} (h : ((world.writeLock inode ((lockText format pid).take
      next)).proceed pid proposal point).lock = some lock') :
      lock' = ⟨inode, pid, (lockText format pid).take next⟩ :=
    Option.some.inj (h.symm.trans lock)
  constructor
  · intro other call' hcall
    rcases pending_proceed hcall with ⟨rfl, _⟩ | ⟨_, hcall⟩
    · exact sound.alive _ call pending
    · exact sound.alive other call' hcall
  · intro lock' hlock
    obtain rfl := only hlock
    exact sound.inode_lt holder
  · intro lock' hlock
    obtain rfl := only hlock
    exact ⟨next, rfl⟩
  · intro other call' inode' hcall hheld
    rcases pending_proceed hcall with ⟨rfl, rfl⟩ | ⟨ne, hcall⟩
    · obtain rfl := Option.some.inj (after.symm.trans hheld)
      rw [text]
      exact lock
    · exact absurd (sound.unique ⟨call', hcall, hheld⟩ holder).1 ne
  · intro other call' hcall
    rcases pending_proceed hcall with ⟨_, rfl⟩ | ⟨ne, hcall⟩
    · exact quiet _
    · have known := sound.points other call' hcall
      obtain ⟨proposal', point'⟩ := call'
      cases point' with
      | probing attempt inode' holder' =>
          refine ⟨known.1, fun lock' hlock same => ?_⟩
          obtain rfl := only hlock
          exact known.2 ⟨inode, pid, call.point.textOf (lockText format pid)⟩ old same
      | reclaiming attempt inode' =>
          refine ⟨known.1, fun other held => ?_⟩
          rcases holds_proceed.mp held with ⟨_, hheld⟩ | ⟨_, held⟩
          · obtain rfl := Option.some.inj (after.symm.trans hheld)
            exact known.2 pid holder
          · exact known.2 other held
      | _ => exact known
  · exact sound.once
  · intro lock' hlock
    obtain rfl := only hlock
    exact Or.inl (holds_proceed.mpr (Or.inl ⟨rfl, after⟩))

end DocumentationSound

/-! ## Steps -/

/-- The steps that keep the protocol: a reclaim removes the lock that it read or
one that nobody holds, and no process dies with an unfinished lock record. -/
def DocumentationAllowed (world : DocumentationWorld) : DocumentationEvent → Prop
  | .step pid _ => ∀ proposal attempt inode lock,
      world.pending pid = some ⟨proposal, .reclaiming attempt inode⟩ → world.lock = some lock →
        lock.inode = inode ∨ ∀ other, ¬ world.Holds other lock.inode
  | .crash pid _ => ∀ proposal inode written,
      world.pending pid = some ⟨proposal, .writing inode written⟩ →
        (lockRecord pid).length ≤ written
  | _ => True

def DocumentationStep (format : NumberFormat) (world : DocumentationWorld)
    (event : DocumentationEvent) (next : DocumentationWorld) : Prop :=
  next = world.after format event

namespace DocumentationSound

open DocumentationWorld

section Step

variable {format : NumberFormat} {start : List Char} {world : DocumentationWorld} {pid : Pid}
  {call : AppendCall}

/-- A process at a point without a lock holds none. -/
theorem not_holds (pending : world.pending pid = some call) (free : call.point.held = none)
    (inode : Nat) : ¬ world.Holds pid inode := by
  rintro ⟨call', hcall, hheld⟩
  obtain rfl := Option.some.inj (pending.symm.trans hcall)
  rw [free] at hheld
  cases hheld

/-- A process at a point with a lock holds that lock and no other. -/
theorem holds_iff (pending : world.pending pid = some call) {inode : Nat} :
    world.Holds pid inode ↔ call.point.held = some inode := by
  constructor
  · rintro ⟨call', hcall, hheld⟩
    obtain rfl := Option.some.inj (pending.symm.trans hcall)
    exact hheld
  · exact fun hheld => ⟨call, pending, hheld⟩

/-- A step between points that hold the same lock, or none. -/
theorem move (sound : DocumentationSound format start world)
    (pending : world.pending pid = some call) {point : AppendPoint}
    (held : point.held = call.point.held)
    (text : ∀ inode, point.held = some inode →
      point.textOf (lockText format pid) = call.point.textOf (lockText format pid))
    (next : PointSound world ⟨call.proposal, point⟩) :
    DocumentationSound format start (world.proceed pid call.proposal point) := by
  refine sound.proceed (sound.alive pid call pending) ?_ ?_ next
  · intro inode
    rw [holds_iff pending, held]
  · intro inode hheld
    rw [text inode hheld]
    exact sound.held pid call inode pending (held ▸ hheld)

/-- The lock of a holder that has written it names the holder. -/
theorem readable (decimal : format.Decimal) (sound : DocumentationSound format start world)
    (pending : world.pending pid = some call)
    (whole : ∃ n, call.point.textOf (lockText format pid) = (lockText format pid).take n ∧
      (lockRecord pid).length ≤ n)
    (lock : LockFile) (hlock : world.lock = some lock) (held : world.Holds pid lock.inode) :
    lockHolder format lock.text = some lock.owner := by
  have same := sound.held pid call lock.inode pending ((holds_iff pending).mp held)
  have record := Option.some.inj (hlock.symm.trans same)
  have owner : lock.owner = pid := congrArg LockFile.owner record
  obtain ⟨n, text, written⟩ := whole
  have content : lock.text = (lockText format pid).take n :=
    (congrArg LockFile.text record).trans text
  rw [content, owner]
  exact lockHolder_written decimal written

/-- A new block keeps every marker single, since its own was not there. -/
theorem once_append_block (sound : DocumentationSound format start world)
    {proposal : DocumentationProposal} (absent : includes proposal.marker world.text = false)
    (other : DocumentationProposal) :
    occurrences other.marker (world.text ++ proposal.block world.text) ≤
      max 1 (occurrences other.marker start) := by
  rw [DocumentationProposal.occurrences_append_block]
  have before := sound.once other
  by_cases same : other.effectId = proposal.effectId
  · have markers : other.marker = proposal.marker := by
      rw [DocumentationProposal.marker, DocumentationProposal.marker, same]
    rw [if_pos same, markers, occurrences_of_not_includes absent]
    omega
  · rw [if_neg same]
    exact before

/-- The text of a holder past its write is the whole lock text. -/
theorem textOf_whole (point : AppendPoint)
    (past : ∀ inode written, point ≠ .writing inode written) (decimal : format.Decimal) :
    ∃ n, point.textOf (lockText format pid) = (lockText format pid).take n ∧
      (lockRecord pid).length ≤ n := by
  refine ⟨(lockText format pid).length, ?_, ?_⟩
  · rw [List.take_length]
    cases point with
    | writing inode written => exact absurd rfl (past inode written)
    | _ => rfl
  · rw [lockText_eq decimal]
    simp

theorem advance (decimal : format.Decimal) (sound : DocumentationSound format start world)
    (pending : world.pending pid = some call) (size : Nat)
    (allowed : DocumentationAllowed world (.step pid size)) :
    DocumentationSound format start (DocumentationWorld.advance format world pid call size) := by
  have alive := sound.alive pid call pending
  have known := sound.points pid call pending
  obtain ⟨proposal, point⟩ := call
  cases point with
  | opening attempt =>
      simp only [DocumentationWorld.advance, openLock]
      split_ifs
      · split
        · next none => exact sound.createLock none alive
        · exact sound.move pending rfl (by simp [AppendPoint.held]) trivial
      · exact sound.finish (not_holds pending rfl)
  | inspecting attempt =>
      simp only [DocumentationWorld.advance]
      split_ifs
      · exact sound.finish (not_holds pending rfl)
      · exact sound.move pending rfl (by simp [AppendPoint.held]) trivial
  | readingHolder attempt =>
      simp only [DocumentationWorld.advance, readHolder]
      split
      · exact sound.finish (not_holds pending rfl)
      · next inode holder read =>
          refine sound.move pending rfl (by simp [AppendPoint.held]) ?_
          obtain ⟨lock, hlock, hread⟩ := Option.bind_eq_some_iff.mp read
          obtain ⟨named, hnamed, heq⟩ := Option.map_eq_some_iff.mp hread
          obtain ⟨rfl, rfl⟩ := Prod.mk.inj heq
          refine ⟨sound.fresh lock hlock, fun lock' hlock' _ => ?_⟩
          obtain rfl := Option.some.inj (hlock.symm.trans hlock')
          obtain ⟨n, text⟩ := sound.written lock hlock
          rw [text] at hnamed
          exact (lockHolder_take decimal hnamed).symm
  | probing attempt inode holder =>
      simp only [DocumentationWorld.advance]
      split_ifs with living
      · exact sound.finish (not_holds pending rfl)
      · refine sound.move pending rfl (by simp [AppendPoint.held]) ⟨known.1, ?_⟩
        rintro other ⟨call, hcall, hheld⟩
        have owner := known.2 _ (sound.held other call inode hcall hheld) rfl
        exact living (owner ▸ sound.alive other call hcall)
  | reclaiming attempt inode =>
      simp only [DocumentationWorld.advance]
      split_ifs with gone
      · exact sound.finish (not_holds pending rfl)
      · obtain ⟨lock, hlock⟩ := Option.ne_none_iff_exists'.mp (mt Option.isNone_iff_eq_none.mpr gone)
        have free (other : Pid) (held : Nat) : ¬ world.Holds other held := by
          rintro ⟨call, hcall, hheld⟩
          have same := sound.held other call held hcall hheld
          obtain rfl := Option.some.inj (hlock.symm.trans same)
          rcases allowed proposal attempt inode _ pending hlock with rfl | nobody
          · exact known.2 other ⟨call, hcall, hheld⟩
          · exact nobody other ⟨call, hcall, hheld⟩
        refine (sound.unlinkLock free).proceed alive ?_ (by simp [AppendPoint.held]) trivial
        intro held
        exact ⟨by simp [AppendPoint.held], fun h => absurd h (free pid held)⟩
  | writing inode written =>
      simp only [DocumentationWorld.advance]
      split_ifs with whole
      · refine sound.writeLock pending rfl rfl ?_ (fun _ => trivial)
        exact (List.take_of_length_le whole).symm
      · exact sound.writeLock pending rfl rfl rfl (fun _ => trivial)
  | openingDestination inode =>
      exact sound.move pending rfl (fun _ _ => rfl) trivial
  | readingDestination inode =>
      simp only [DocumentationWorld.advance]
      split_ifs with found
      · exact sound.move pending rfl (fun _ _ => rfl) trivial
      · exact sound.move pending rfl (fun _ _ => rfl) ⟨rfl, by simpa using found⟩
  | appending inode current =>
      obtain ⟨rfl, absent⟩ := known
      have released : DocumentationSound format start
          (world.proceed pid proposal (.releasing inode)) :=
        sound.move pending rfl (fun _ _ => rfl) trivial
      refine released.append ?_ (sound.once_append_block absent)
      intro other call inode' current hcall heq
      have held : world.Holds pid inode := (holds_iff pending).mpr rfl
      rcases pending_proceed hcall with ⟨_, rfl⟩ | ⟨ne, hcall⟩
      · cases heq
      · exact ne (sound.unique ⟨call, hcall, by rw [heq]; rfl⟩ held).1
  | releasing inode =>
      have held : world.Holds pid inode := (holds_iff pending).mpr rfl
      have left : DocumentationSound format start (world.finish pid) :=
        sound.leave (fun _ _ => rfl)
          (sound.readable decimal pending (textOf_whole _ (by simp) decimal))
      refine left.unlinkLock ?_
      intro other inode' h
      obtain ⟨ne, h⟩ := holds_finish.mp h
      exact ne (sound.unique h held).1

theorem die (decimal : format.Decimal) (sound : DocumentationSound format start world)
    (size : Nat) (allowed : DocumentationAllowed world (.crash pid size)) :
    DocumentationSound format start (world.die pid size) := by
  have dead : DocumentationSound format start
      { world.finish pid with alive := Function.update world.alive pid false } := by
    refine sound.leave (fun other ne => Function.update_of_ne ne _ _) ?_
    intro lock hlock held
    obtain ⟨⟨proposal, point⟩, pending, hheld⟩ := held
    refine sound.readable decimal pending ?_ lock hlock ⟨_, pending, hheld⟩
    by_cases writing : ∃ inode written, point = .writing inode written
    · obtain ⟨inode, written, rfl⟩ := writing
      exact ⟨written, rfl, allowed proposal inode written pending⟩
    · exact textOf_whole point (fun inode written h => writing ⟨inode, written, h⟩) decimal
  simp only [DocumentationWorld.die]
  split
  · next proposal inode current pending =>
      obtain ⟨same, absent⟩ := sound.points pid _ pending
      refine dead.append ?_ ?_
      · intro other call inode' current' hcall heq
        obtain ⟨ne, hcall⟩ := pending_finish hcall
        have held : world.Holds pid inode := ⟨_, pending, rfl⟩
        exact ne (sound.unique ⟨call, hcall, by rw [heq]; rfl⟩ held).1
      · intro other
        have part : world.text ++ (proposal.block current).take size <+:
            world.text ++ proposal.block current :=
          (List.prefix_append_right_inj _).mpr (List.take_prefix _ _)
        rw [same] at part absent ⊢
        exact (occurrences_le_of_isPrefixOf part).trans (sound.once_append_block absent other)
  · exact dead

theorem after (decimal : format.Decimal) (sound : DocumentationSound format start world)
    {event : DocumentationEvent} (allowed : DocumentationAllowed world event) :
    DocumentationSound format start (world.after format event) := by
  cases event with
  | spawn pid =>
      simp only [DocumentationWorld.after]
      split_ifs with living
      · exact sound
      · constructor
        case alive =>
          intro other call hcall
          by_cases heq : other = pid
          · rw [heq]
            exact Function.update_self _ _ _
          · exact (Function.update_of_ne heq _ _).trans (sound.alive other call hcall)
        · exact sound.fresh
        · exact sound.written
        · exact sound.held
        · exact sound.points
        · exact sound.once
        · exact sound.complete
  | call pid proposal =>
      simp only [DocumentationWorld.after]
      split_ifs with ready
      · refine sound.proceed ready.1 ?_ (by simp [AppendPoint.held]) trivial
        intro inode
        have idle : world.pending pid = none := Option.isNone_iff_eq_none.mp ready.2
        simp [AppendPoint.held, DocumentationWorld.Holds, idle]
      · exact sound
  | step pid size =>
      simp only [DocumentationWorld.after]
      split
      · next call pending => exact sound.advance decimal pending size allowed
      · exact sound
  | refuse pid =>
      simp only [DocumentationWorld.after]
      split
      · next proposal inode pending => exact sound.move pending rfl (fun _ _ => rfl) trivial
      · exact sound
  | crash pid size => exact sound.die decimal size allowed

end Step

theorem of_run {format : NumberFormat} (decimal : format.Decimal) {start : List Char}
    {world later : DocumentationWorld} {events : List DocumentationEvent}
    (run : Run (Guarded (DocumentationStep format) DocumentationAllowed) world events later)
    (sound : DocumentationSound format start world) : DocumentationSound format start later := by
  refine run.invariant (fun before step => ?_) sound
  obtain ⟨allowed, rfl⟩ := step
  exact before.after decimal allowed

end DocumentationSound

/-! ## Text is never lost -/

theorem advance_text (format : NumberFormat) (world : DocumentationWorld) (pid : Pid)
    (call : AppendCall) (size : Nat) :
    world.text <+: (world.advance format pid call size).text := by
  obtain ⟨proposal, point⟩ := call
  cases point with
  | opening attempt =>
      simp only [DocumentationWorld.advance, DocumentationWorld.openLock]
      split_ifs
      · split <;> exact List.prefix_refl _
      · exact List.prefix_refl _
  | readingHolder attempt =>
      simp only [DocumentationWorld.advance, DocumentationWorld.readHolder]
      split <;> exact List.prefix_refl _
  | inspecting attempt | probing attempt inode holder | reclaiming attempt inode =>
      simp only [DocumentationWorld.advance]
      split_ifs <;> exact List.prefix_refl _
  | appending inode current => exact List.prefix_append _ _
  | _ => exact List.prefix_refl _

/-- Every step keeps what was there and may only add to it. -/
theorem after_text (format : NumberFormat) (world : DocumentationWorld)
    (event : DocumentationEvent) : world.text <+: (world.after format event).text := by
  cases event with
  | step pid size =>
      simp only [DocumentationWorld.after]
      split
      · exact advance_text format world pid _ size
      · exact List.prefix_refl _
  | crash pid size =>
      simp only [DocumentationWorld.after, DocumentationWorld.die]
      split
      · exact List.prefix_append _ _
      · exact List.prefix_refl _
  | spawn pid | call pid proposal =>
      simp only [DocumentationWorld.after]
      split_ifs <;> exact List.prefix_refl _
  | refuse pid =>
      simp only [DocumentationWorld.after]
      split <;> exact List.prefix_refl _

theorem text_of_run {format : NumberFormat} {world later : DocumentationWorld}
    {events : List DocumentationEvent}
    (run : Run (DocumentationStep format) world events later) : world.text <+: later.text := by
  refine run.invariant (I := fun next => world.text <+: next.text) (fun before step => ?_)
    (List.prefix_refl _)
  rw [step]
  exact before.trans (after_text format _ _)

/-! ## A lock of a dead process is reclaimed -/

section Alone

variable {format : NumberFormat} {world : DocumentationWorld} {pid : Pid}
  {proposal : DocumentationProposal}

/-- A run of the steps of one process. -/
def AloneRun (format : NumberFormat) (pid : Pid) (world later : DocumentationWorld) : Prop :=
  ∃ events, (∀ event ∈ events, (∃ size, event = .step pid size) ∨
    ∃ proposal, event = .call pid proposal) ∧ Run (DocumentationStep format) world events later

theorem AloneRun.trans {middle later : DocumentationWorld} (h : AloneRun format pid world middle)
    (h' : AloneRun format pid middle later) : AloneRun format pid world later := by
  obtain ⟨events, own, run⟩ := h
  obtain ⟨events', own', run'⟩ := h'
  refine ⟨events ++ events', ?_, run.append run'⟩
  intro event hevent
  exact (List.mem_append.mp hevent).elim (own event) (own' event)

/-- The append is complete: the block is there and the lock is free. -/
def Appended (proposal : DocumentationProposal) (world : DocumentationWorld) : Prop :=
  world.lock = none ∧ includes proposal.marker world.text = true

@[simp] theorem proceed_pending_self {point : AppendPoint} :
    (world.proceed pid proposal point).pending pid = some ⟨proposal, point⟩ := by
  simp [DocumentationWorld.proceed]

theorem includes_block (proposal : DocumentationProposal) (text : List Char) :
    includes proposal.marker (text ++ proposal.block text) = true := by
  have := DocumentationProposal.occurrences_append_block proposal proposal text
  rw [if_pos rfl] at this
  simp [includes, this]

/-- The process alone can complete its append. -/
def Completes (format : NumberFormat) (pid : Pid) (proposal : DocumentationProposal)
    (world : DocumentationWorld) : Prop :=
  ∃ later, AloneRun format pid world later ∧ Appended proposal later

theorem Completes.step {call : AppendCall} (pending : world.pending pid = some call) (size : Nat)
    {next : DocumentationWorld} (advanced : world.advance format pid call size = next)
    (rest : Completes format pid proposal next) : Completes format pid proposal world := by
  obtain ⟨later, run, done⟩ := rest
  refine ⟨later, AloneRun.trans ⟨[.step pid size], by simp, Run.single ?_⟩ run, done⟩
  simp only [DocumentationStep, DocumentationWorld.after, pending, advanced]

/-- A holder whose marker is in the destination releases the lock. -/
theorem completes_releasing {inode : Nat}
    (pending : world.pending pid = some ⟨proposal, .releasing inode⟩)
    (found : includes proposal.marker world.text = true) :
    Completes format pid proposal world :=
  .step pending 0 rfl ⟨_, ⟨[], by simp, .refl _⟩, rfl, found⟩

/-- A holder that has written its lock completes. -/
theorem completes_locked {inode : Nat}
    (pending : world.pending pid = some ⟨proposal, .openingDestination inode⟩) :
    Completes format pid proposal world := by
  let opened := world.proceed pid proposal (.readingDestination inode)
  refine Completes.step pending 0 (rfl : _ = opened) ?_
  cases found : includes proposal.marker opened.text with
  | true =>
      have read : opened.advance format pid ⟨proposal, .readingDestination inode⟩ 0 =
          opened.proceed pid proposal (.releasing inode) := by
        simp only [DocumentationWorld.advance]
        rw [if_pos found]
      exact .step proceed_pending_self 0 read (completes_releasing proceed_pending_self found)
  | false =>
      have read : opened.advance format pid ⟨proposal, .readingDestination inode⟩ 0 =
          opened.proceed pid proposal (.appending inode opened.text) := by
        simp only [DocumentationWorld.advance]
        rw [if_neg (Bool.eq_false_iff.mp found)]
      refine .step proceed_pending_self 0 read (.step proceed_pending_self 0 rfl ?_)
      refine completes_releasing proceed_pending_self ?_
      exact includes_block proposal world.text

/-- A process that finds no lock completes. -/
theorem completes_opening {attempt : Nat} (attempts : attempt < 2) (none : world.lock = none)
    (pending : world.pending pid = some ⟨proposal, .opening attempt⟩) :
    Completes format pid proposal world := by
  let created := (world.createLock pid).proceed pid proposal (.writing world.nextInode 0)
  have create : world.advance format pid ⟨proposal, .opening attempt⟩ 0 = created := by
    simp only [DocumentationWorld.advance, DocumentationWorld.openLock, if_pos attempts, none]
    rfl
  let full := (lockText format pid).length
  have write : created.advance format pid ⟨proposal, .writing world.nextInode 0⟩ full =
      (created.writeLock world.nextInode ((lockText format pid).take (0 + full))).proceed pid
        proposal (.openingDestination world.nextInode) := by
    simp only [DocumentationWorld.advance]
    rw [if_pos (Nat.le_of_eq (Nat.zero_add _).symm)]
  refine .step pending 0 create (.step proceed_pending_self full write ?_)
  exact completes_locked proceed_pending_self

/-- A process that finds the lock of a dead process reclaims it. -/
theorem completes_reclaiming {lock : LockFile} (held : world.lock = some lock)
    (named : lockHolder format lock.text = some lock.owner)
    (dead : world.alive lock.owner = false)
    (pending : world.pending pid = some ⟨proposal, .opening 0⟩) :
    Completes format pid proposal world := by
  let found := world.proceed pid proposal (.inspecting 0)
  have busy : world.advance format pid ⟨proposal, .opening 0⟩ 0 = found := by
    simp only [DocumentationWorld.advance, DocumentationWorld.openLock, held]
    rfl
  let seen := found.proceed pid proposal (.readingHolder 0)
  have inspect : found.advance format pid ⟨proposal, .inspecting 0⟩ 0 = seen := by
    have lock : found.lock.isNone = false := by simp [found, DocumentationWorld.proceed, held]
    simp only [DocumentationWorld.advance, lock]
    rfl
  let read := seen.proceed pid proposal (.probing 0 lock.inode lock.owner)
  have readHolder : seen.advance format pid ⟨proposal, .readingHolder 0⟩ 0 = read := by
    have holder : (seen.lock.bind fun lock => (lockHolder format lock.text).map fun pid =>
        (lock.inode, pid)) = some (lock.inode, lock.owner) := by
      simp [seen, found, DocumentationWorld.proceed, held, named]
    simp only [DocumentationWorld.advance, DocumentationWorld.readHolder, holder]
    rfl
  let probed := read.proceed pid proposal (.reclaiming 0 lock.inode)
  have probe : read.advance format pid ⟨proposal, .probing 0 lock.inode lock.owner⟩ 0 =
      probed := by
    have gone : read.alive lock.owner = false := dead
    simp only [DocumentationWorld.advance, gone]
    rfl
  have unlink : probed.advance format pid ⟨proposal, .reclaiming 0 lock.inode⟩ 0 =
      probed.unlinkLock.proceed pid proposal (.opening 1) := by
    have there : probed.lock.isNone = false := by
      simp [probed, read, seen, found, DocumentationWorld.proceed, held]
    simp only [DocumentationWorld.advance, there]
    rfl
  refine .step pending 0 busy (.step proceed_pending_self 0 inspect
    (.step proceed_pending_self 0 readHolder (.step proceed_pending_self 0 probe
      (.step proceed_pending_self 0 unlink ?_))))
  exact completes_opening (by omega) rfl proceed_pending_self

/-- A lock left by a dead process blocks no later append. -/
theorem completes_of_sound {start : List Char} (sound : DocumentationSound format start world)
    (alive : world.alive pid = true) (idle : world.pending pid = none)
    (dead : ∀ lock, world.lock = some lock → world.alive lock.owner = false)
    (proposal : DocumentationProposal) : Completes format pid proposal world := by
  let called := world.proceed pid proposal (.opening 0)
  have begins : Completes format pid proposal called := by
    cases hlock : world.lock with
    | none => exact completes_opening (by omega) hlock proceed_pending_self
    | some lock =>
        have gone := dead lock hlock
        have named : lockHolder format lock.text = some lock.owner := by
          refine (sound.complete lock hlock).resolve_left ?_
          rintro ⟨call, hcall, _⟩
          rw [sound.alive lock.owner call hcall] at gone
          cases gone
        exact completes_reclaiming hlock named gone proceed_pending_self
  obtain ⟨later, run, done⟩ := begins
  refine ⟨later, AloneRun.trans ⟨[.call pid proposal], by simp, Run.single ?_⟩ run, done⟩
  simp only [DocumentationStep, DocumentationWorld.after, alive, idle, Option.isNone_none,
    and_self, if_true]
  rfl

end Alone

/-! ## Every run -/

/-- In every run whose reclaims remove the lock they read, or one that nobody
holds, and in which no process dies with an unfinished lock record: a marker
occurs at most once unless it did at the start, no text is ever lost, and the
lock of a dead process does not stop a live one. -/
theorem proposals_kept {format : NumberFormat} (decimal : format.Decimal) {text : List Char}
    {alive : Pid → Bool} {events : List DocumentationEvent} {world : DocumentationWorld}
    (run : Run (Guarded (DocumentationStep format) DocumentationAllowed)
      (DocumentationWorld.start text alive) events world) :
    (∀ proposal : DocumentationProposal, occurrences proposal.marker world.text ≤
        max 1 (occurrences proposal.marker text)) ∧
      (∀ more later, Run (DocumentationStep format) world more later →
        world.text <+: later.text) ∧
      ∀ pid proposal, world.alive pid = true → world.pending pid = none →
        (∀ lock, world.lock = some lock → world.alive lock.owner = false) →
          Completes format pid proposal world := by
  have sound := DocumentationSound.of_run decimal run (.start_sound text alive)
  refine ⟨sound.once, fun more later further => text_of_run further, ?_⟩
  intro pid proposal living idle dead
  exact completes_of_sound sound living idle dead proposal

/-! ## The two defects -/

/-- A lock that names nobody, with no process past its inspection. -/
def Stuck (format : NumberFormat) (lock : LockFile) (world : DocumentationWorld) : Prop :=
  world.lock = some lock ∧ lockHolder format lock.text = none ∧
    ∀ pid call, world.pending pid = some call → ∃ attempt, call.point = .opening attempt ∨
      call.point = .inspecting attempt ∨ call.point = .readingHolder attempt

theorem Stuck.after {format : NumberFormat} {lock : LockFile} {world : DocumentationWorld}
    (stuck : Stuck format lock world) (event : DocumentationEvent) :
    Stuck format lock (world.after format event) ∧
      (world.after format event).text = world.text := by
  obtain ⟨held, unnamed, early⟩ := stuck
  have finish (pid : Pid) : Stuck format lock (world.finish pid) :=
    ⟨held, unnamed, fun other call h =>
      early other call (DocumentationWorld.pending_finish h).2⟩
  have proceed (pid : Pid) (proposal : DocumentationProposal) (point : AppendPoint)
      (h : ∃ attempt, point = .opening attempt ∨ point = .inspecting attempt ∨
        point = .readingHolder attempt) : Stuck format lock (world.proceed pid proposal point) := by
    refine ⟨held, unnamed, fun other call hcall => ?_⟩
    rcases DocumentationWorld.pending_proceed hcall with ⟨_, rfl⟩ | ⟨_, hcall⟩
    · exact h
    · exact early other call hcall
  cases event with
  | spawn pid =>
      simp only [DocumentationWorld.after]
      split_ifs
      · exact ⟨⟨held, unnamed, early⟩, rfl⟩
      · exact ⟨⟨held, unnamed, early⟩, rfl⟩
  | call pid proposal =>
      simp only [DocumentationWorld.after]
      split_ifs
      · exact ⟨proceed pid proposal _ ⟨0, Or.inl rfl⟩, rfl⟩
      · exact ⟨⟨held, unnamed, early⟩, rfl⟩
  | step pid size =>
      simp only [DocumentationWorld.after]
      split
      · next call pending =>
          obtain ⟨attempt, opening | inspecting | reading⟩ := early pid call pending
          · simp only [DocumentationWorld.advance, opening, DocumentationWorld.openLock, held]
            split_ifs
            · exact ⟨proceed pid _ _ ⟨attempt, Or.inr (Or.inl rfl)⟩, rfl⟩
            · exact ⟨finish pid, rfl⟩
          · simp only [DocumentationWorld.advance, inspecting, held, Option.isNone_some,
              Bool.false_eq_true, if_false]
            exact ⟨proceed pid _ _ ⟨attempt, Or.inr (Or.inr rfl)⟩, rfl⟩
          · simp only [DocumentationWorld.advance, reading, DocumentationWorld.readHolder, held,
              Option.bind_some, unnamed, Option.map_none]
            exact ⟨finish pid, rfl⟩
      · exact ⟨⟨held, unnamed, early⟩, rfl⟩
  | refuse pid =>
      simp only [DocumentationWorld.after]
      split
      · next pending =>
          obtain ⟨attempt, h | h | h⟩ := early pid _ pending <;> cases h
      · exact ⟨⟨held, unnamed, early⟩, rfl⟩
  | crash pid size =>
      simp only [DocumentationWorld.after, DocumentationWorld.die]
      split
      · next pending =>
          obtain ⟨attempt, h | h | h⟩ := early pid _ pending <;> cases h
      · exact ⟨finish pid, rfl⟩

/-- A lock that names nobody stops every append for ever. -/
theorem Stuck.of_run {format : NumberFormat} {lock : LockFile} {world later : DocumentationWorld}
    {events : List DocumentationEvent} (stuck : Stuck format lock world)
    (run : Run (DocumentationStep format) world events later) :
    Stuck format lock later ∧ later.text = world.text := by
  refine run.invariant (I := fun next => Stuck format lock next ∧ next.text = world.text)
    (fun before step => ?_) ⟨stuck, rfl⟩
  rw [step]
  obtain ⟨after, text⟩ := before.1.after _
  exact ⟨after, text.trans before.2⟩

/-! ## Scripted runs -/

def processId (n : Nat) (h : 0 < n ∧ n ≤ JsNumber.maxSafe) : Pid := ⟨n, h⟩

def firstProcess : Pid := processId 1 (by decide)
def secondProcess : Pid := processId 2 (by decide)
def thirdProcess : Pid := processId 3 (by decide)

def noteProposal : DocumentationProposal where
  effectId := ['e']
  content := ['n', '\n']
  plain := List.forall_mem_singleton.mpr (by decide)
  unmarked := by decide

def steps (pid : Pid) (sizes : List Nat) : List DocumentationEvent := sizes.map (.step pid)

/-- The first process dies with its lock. Both others read the lock and find its
process dead; the third removes the lock that the second has created since. -/
def raceScript : List DocumentationEvent :=
  .call firstProcess noteProposal :: steps firstProcess [0, 99] ++ [.crash firstProcess 0] ++
    .call secondProcess noteProposal :: steps secondProcess [0, 0, 0, 0] ++
    .call thirdProcess noteProposal :: steps thirdProcess [0, 0, 0, 0] ++
    steps secondProcess [0, 0, 99, 0, 0] ++ steps thirdProcess [0, 0, 99, 0, 0, 0, 0] ++
    steps secondProcess [0]

/-- The first process dies after it created the lock and before it wrote to it. -/
def tornScript : List DocumentationEvent :=
  [.call firstProcess noteProposal, .step firstProcess 0, .crash firstProcess 0]

/-- The first process dies with a whole lock and the second reclaims it. -/
def reclaimLockScript : List DocumentationEvent :=
  .call firstProcess noteProposal :: steps firstProcess [0, 99] ++ [.crash firstProcess 0] ++
    .call secondProcess noteProposal :: steps secondProcess [0, 0, 0, 0, 0, 0, 99, 0, 0, 0, 0]

def scripted (events : List DocumentationEvent) : DocumentationWorld :=
  events.foldl (.after decimalFormat) (.start [] fun _ => true)

theorem run_scripted (events : List DocumentationEvent) :
    Run (DocumentationStep decimalFormat) (.start [] fun _ => true) events (scripted events) :=
  Run.foldl (DocumentationWorld.after decimalFormat) _ events

/-- A second block, although both appends look for the marker under the lock; and a
lock of a dead process after which nothing is ever appended. -/
theorem proposals_kept_refuted :
    (Run (DocumentationStep decimalFormat) (.start [] fun _ => true) raceScript
        (scripted raceScript) ∧
      occurrences noteProposal.marker (scripted raceScript).text = 2) ∧
    Run (DocumentationStep decimalFormat) (.start [] fun _ => true) tornScript
        (scripted tornScript) ∧
      (scripted tornScript).lock.any (fun lock => !(scripted tornScript).alive lock.owner) = true ∧
      ∀ more later, Run (DocumentationStep decimalFormat) (scripted tornScript) more later →
        later.text = [] ∧ later.lock.isSome = true := by
  refine ⟨⟨run_scripted raceScript, by decide +kernel⟩, run_scripted tornScript,
    by decide +kernel, ?_⟩
  intro more later run
  have lock : (scripted tornScript).lock = some ⟨0, firstProcess, []⟩ := by
    simp [scripted, tornScript, DocumentationWorld.start, DocumentationWorld.after,
      DocumentationWorld.proceed, DocumentationWorld.advance, DocumentationWorld.openLock,
      DocumentationWorld.createLock, DocumentationWorld.die, DocumentationWorld.finish]
  have idle (pid : Pid) : (scripted tornScript).pending pid = none := by
    simp [scripted, tornScript, DocumentationWorld.start, DocumentationWorld.after,
      DocumentationWorld.proceed, DocumentationWorld.advance, DocumentationWorld.openLock,
      DocumentationWorld.createLock, DocumentationWorld.die, DocumentationWorld.finish]
  have stuck : Stuck decimalFormat ⟨0, firstProcess, []⟩ (scripted tornScript) := by
    refine ⟨lock, rfl, fun pid call pending => ?_⟩
    rw [idle pid] at pending
    cases pending
  obtain ⟨after, text⟩ := stuck.of_run run
  have start : (scripted tornScript).text = [] := by decide +kernel
  exact ⟨text.trans start, by rw [after.1]; rfl⟩

/-- A check that implies that a step keeps the protocol. -/
def allowedNow (world : DocumentationWorld) : DocumentationEvent → Bool
  | .step pid _ =>
      match world.pending pid, world.lock with
      | some ⟨_, .reclaiming _ inode⟩, some lock => lock.inode == inode
      | _, _ => true
  | .crash pid _ =>
      match world.pending pid with
      | some ⟨_, .writing _ written⟩ => (lockRecord pid).length ≤ written
      | _ => true
  | _ => true

theorem allowed_of_allowedNow (world : DocumentationWorld) (event : DocumentationEvent)
    (h : allowedNow world event = true) : DocumentationAllowed world event := by
  cases event with
  | step pid size =>
      intro proposal attempt inode lock pending held
      simp only [allowedNow, pending, held, beq_iff_eq] at h
      exact Or.inl h
  | crash pid size =>
      intro proposal inode written pending
      simpa [allowedNow, pending] using h
  | _ => trivial

theorem guarded_scripted {events : List DocumentationEvent}
    (checked : Run.checked (DocumentationWorld.after decimalFormat) allowedNow
      (.start [] fun _ => true) events = true) :
    Run (Guarded (DocumentationStep decimalFormat) DocumentationAllowed)
      (.start [] fun _ => true) events (scripted events) :=
  Run.guarded_foldl allowed_of_allowedNow checked

theorem proposals_kept_reclaimLockScript :
    occurrences noteProposal.marker (scripted reclaimLockScript).text ≤ max 1 0 ∧
      Completes decimalFormat thirdProcess noteProposal (scripted reclaimLockScript) := by
  have checked : Run.checked (DocumentationWorld.after decimalFormat) allowedNow
      (.start [] fun _ => true) reclaimLockScript = true := by
    decide +kernel
  obtain ⟨once, _, completes⟩ := proposals_kept decimalFormat_decimal (guarded_scripted checked)
  have living : (scripted reclaimLockScript).alive thirdProcess = true := by decide +kernel
  have idle : ((scripted reclaimLockScript).pending thirdProcess).isNone = true := by
    decide +kernel
  have free : (scripted reclaimLockScript).lock.isNone = true := by decide +kernel
  refine ⟨once noteProposal, completes thirdProcess noteProposal living
    (Option.isNone_iff_eq_none.mp idle) ?_⟩
  intro lock held
  have none := Option.isNone_iff_eq_none.mp free
  rw [held] at none
  cases none

end AdCoder.ProjectOperations
