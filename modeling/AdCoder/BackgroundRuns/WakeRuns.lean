import AdCoder.BackgroundRuns.Processes
import AdCoder.BackgroundRuns.WakeLaws

/-!
# Wake windows between a worker and its owner

The owner takes a snapshot of the pending windows, runs a turn, and marks the
windows of the snapshot. An event that a worker appends after the snapshot stays
in a window that is not handled, as long as the record has not handled the
window in which the event lands, and the snapshot has not counted the event
already.
-/

namespace AdCoder.BackgroundRuns

open Foundation Orchestration ProjectOperations

/-! ## What the methods do to windows -/

/-- The windows of a record. -/
def windowsOf (record : Option PersistedEntry) : List WakeEntry := (record.bind (·.wake)).getD []

/-- The windows of the copy. -/
def Manager.windows (m : Manager) : List WakeEntry := (m.entry.map (·.wake)).getD []

section Methods

variable (config : BackgroundRunConfig) (now : Nat)

/-- The windows after events of the given lifecycles. -/
def coalesced (lifecycles : List BackgroundLifecycle) (entries : List WakeEntry) :
    List WakeEntry :=
  lifecycles.foldl (fun entries lifecycle => coalesceWake config now lifecycle entries) entries

theorem projectSegment_wake (segment : List StepCost) (e : Entry) :
    (e.projectSegment config now segment).wake =
      coalesced config now (.started :: segment.map fun _ => .stageChanged) e.wake := by
  have steps (e : Entry) :
      (segment.foldl (fun e step =>
        Entry.onStage config now step { e with lifecycle := .stageChanged }) e).wake =
        coalesced config now (segment.map fun _ => .stageChanged) e.wake := by
    induction segment generalizing e with
    | nil => rfl
    | cons step rest ih => exact ih _
  exact steps _

theorem Work.run_wake (work : Work) (e : Entry) :
    (work.run config now e).wake = coalesced config now work.appends e.wake := by
  cases work with
  | projectPause reason metrics segment =>
      by_cases empty : segment = []
      · simp [run, appends, Entry.projectPause, empty, coalesced, Entry.append]
      · simp only [run, appends, Entry.projectPause, empty, reduceIte, Entry.append]
        rw [projectSegment_wake]
        simp [coalesced]
  | projectResult result =>
      simp only [run, appends, Entry.projectResult, Entry.append]
      rw [projectSegment_wake]
      simp [coalesced]
  | _ => rfl

/-- Coalescing handles nothing. -/
theorem handledIn_coalesced (lifecycles : List BackgroundLifecycle) (entries : List WakeEntry) :
    HandledIn (coalesced config now lifecycles entries) entries := by
  induction lifecycles generalizing entries with
  | nil => exact .of_subset fun _ h => h
  | cons lifecycle rest ih =>
      refine (ih (coalesceWake config now lifecycle entries)).trans ?_
      unfold coalesceWake
      split
      · exact .of_subset fun _ h => h
      · rename_i kind _
        intro w hw handled
        rcases (coalesceWindow_spec _ kind now entries).2 w hw with known | rfl
        · exact ⟨w, known, rfl, handled⟩
        · simp [(landing_spec kind now entries).2.1] at handled

variable {config now} {record : Option PersistedEntry} {m : Manager} {e : Entry}

theorem Manager.windows_some (found : m.entry = some e) : m.windows = e.wake := by
  simp [Manager.windows, found]

/-- A method reports windows of its copy. -/
theorem Manager.resume_windows (config : BackgroundRunConfig) (found : m.entry = some e) (call : Call) :
    (m.resume config e call).windows = m.windows ∧
      ((m.resume config e call).pending = m.pending ∨
        (m.resume config e call).pending ⊆ m.windows) := by
  cases call with
  | pendingWakes =>
      refine ⟨rfl, .inr ?_⟩
      rw [windows_some found]
      exact fun w hw => List.mem_of_mem_filter hw
  | _ => exact ⟨rfl, .inl rfl⟩

/-- What a look at the record leaves of the windows. -/
def Manager.Looked (disk : List WakeEntry) (m m' : Manager) : Prop :=
  (m'.windows = m.windows ∨ m'.windows = disk) ∧
    (m'.pending = m.pending ∨ m'.pending ⊆ m'.windows)

theorem Manager.looked_resume (found : m.entry = some e) (call : Call) (disk : List WakeEntry) :
    m.Looked disk (m.resume config e call) := by
  obtain ⟨windows, pending⟩ := resume_windows config found call
  exact ⟨.inl windows, by rwa [windows]⟩

theorem Manager.looked_refresh (found : m.entry = some e) (call : Call) :
    m.Looked (windowsOf record) (m.refresh config now record e call) := by
  unfold Manager.refresh
  split
  · exact looked_resume found call _
  · rename_i stored
    split
    · unfold Manager.unreadable
      split
      · exact looked_resume found _ _
      · exact ⟨.inl rfl, .inl rfl⟩
    · rename_i persisted read
      obtain ⟨-, rfl⟩ := (PersistedEntry.yields stored persisted).mp read
      split
      · exact looked_resume found call _
      · dsimp only
        split
        · exact ⟨.inr rfl, .inl rfl⟩
        · have resumed := resume_windows config
            (show Manager.entry { m with entry := some (e.ofRecord persisted) } = _ from rfl) call
          exact ⟨.inr resumed.1, resumed.2.imp_right fun h => by rwa [resumed.1]⟩

theorem Manager.load_windows :
    (Manager.load config now record).windows ⊆ windowsOf record ∧
      (Manager.load config now record).pending = [] := by
  have empty : Manager.windows {} ⊆ windowsOf record ∧ Manager.pending {} = [] :=
    ⟨List.nil_subset _, rfl⟩
  unfold Manager.load
  split
  · exact empty
  · rename_i stored
    split
    · exact empty
    · rename_i persisted read
      obtain ⟨-, rfl⟩ := (PersistedEntry.yields stored persisted).mp read
      split
      · exact empty
      · split
        · exact ⟨fun _ h => h, rfl⟩
        · split
          · exact ⟨fun _ h => h, rfl⟩
          · exact ⟨fun _ h => h, rfl⟩

theorem Manager.promise_windows (found : m.entry = some e) (work : Work) :
    (m.promise e work).windows = m.windows ∧ (m.promise e work).pending = m.pending := by
  unfold Manager.promise
  split
  · exact ⟨rfl, rfl⟩
  · split
    · exact ⟨rfl, rfl⟩
    · exact ⟨(windows_some found).symm, rfl⟩

theorem Manager.looked_between (found : m.entry = some e) (action : Action)
    (disk : List WakeEntry) : m.Looked disk (m.between config e action) := by
  have same : m.Looked disk m := ⟨.inl rfl, .inl rfl⟩
  cases action with
  | call method =>
      simp only [Manager.between, Manager.call]
      split
      · exact looked_resume found method disk
      · exact same
  | promise work =>
      simp only [Manager.between]
      split
      · obtain ⟨windows, pending⟩ := promise_windows found work
        exact ⟨.inl windows, .inl pending⟩
      · exact same
  | settle | heartbeat | timeout | launchFails =>
      simp only [Manager.between]
      split <;> exact same
  | _ => exact same

theorem Manager.claim_windows (now : Nat) (record : Option PersistedEntry)
    (found : m.entry = some e) (workerId : String) (process : RunProcessIdentity) :
    (m.claim now record e workerId process).1.windows = m.windows ∧
      (m.claim now record e workerId process).1.pending = m.pending ∧
      windowsOf (m.claim now record e workerId process).2 = windowsOf record := by
  unfold Manager.claim
  split
  · exact ⟨rfl, rfl, rfl⟩
  · split
    · exact ⟨(windows_some found).symm, rfl, rfl⟩
    · exact ⟨rfl, rfl, rfl⟩

/-- A reap opens a window on disk, or leaves the windows there as they are. -/
theorem Manager.reap_windows (config : BackgroundRunConfig) (now : Nat)
    (record : Option PersistedEntry) (found : m.entry = some e) (call : Call) :
    m.Looked (windowsOf record) (m.reap config now record e call).1 ∧
      (windowsOf (m.reap config now record e call).2 = windowsOf record ∨
        (∃ stored, record = some stored ∧
          reapDue config now stored.lifecycle stored.lease stored.events = true) ∧
        windowsOf (m.reap config now record e call).2 =
          windowsOf record ++ [openWindow .failed now]) := by
  have resumed : m.Looked (windowsOf record) (Manager.resume config
      { m with entry := some { e with cancelled := true } } { e with cancelled := true } call) := by
    have := resume_windows config
      (show Manager.entry { m with entry := some { e with cancelled := true } } = _ from rfl) call
    rw [show Manager.windows { m with entry := some { e with cancelled := true } } = m.windows from
      (windows_some found).symm] at this
    exact ⟨.inl this.1, this.2.imp_right fun h => by rwa [this.1]⟩
  unfold Manager.reap
  dsimp only
  split
  · exact ⟨resumed, .inl rfl⟩
  · rename_i stored
    split
    · rename_i due
      exact ⟨⟨.inl (windows_some found).symm, .inl rfl⟩, .inr ⟨⟨stored, rfl, due⟩, rfl⟩⟩
    · exact ⟨resumed, .inl rfl⟩

theorem Manager.write_windows (config : BackgroundRunConfig) (now : Nat)
    (record : Option PersistedEntry) (found : m.entry = some e) (work : Work) :
    (m.write config now record e work).1.windows = coalesced config now work.appends m.windows ∧
      (m.write config now record e work).1.pending = m.pending ∧
      windowsOf (m.write config now record e work).2 =
        mergeWindows (windowsOf record) (m.write config now record e work).1.windows := by
  refine ⟨?_, rfl, ?_⟩
  · rw [windows_some found]
    exact Work.run_wake config now work e
  · simp only [windowsOf, Manager.write, Entry.persisted, Manager.windows, Option.bind_some,
      Option.map_some, Option.getD_some]
    cases record.bind (·.wake) with
    | none => rfl
    | some entries => rfl

/-! ## Moves -/

def Point.reaps : Point → Bool
  | reaping _ => true
  | _ => false

/-- The manager reaps the record now, which opens a window. -/
def Manager.ReapsNow (config : BackgroundRunConfig) (now : Nat) (record : Option PersistedEntry)
    (m : Manager) (action : Action) : Prop :=
  action.accesses = true ∧ m.point.reaps = true ∧
    ∃ stored ∈ record, reapDue config now stored.lifecycle stored.lease stored.events = true

/-- What an action does to the windows of its manager and to those on disk. -/
inductive WakeMove (config : BackgroundRunConfig) (now : Nat) (record : Option PersistedEntry)
    (m : Manager) : Action → Manager → List WakeEntry → Prop
  | load {m' : Manager} (windows : m'.windows ⊆ windowsOf record) (pending : m'.pending = []) :
      WakeMove config now record m .construct m' (windowsOf record)
  | look {action : Action} {m' : Manager} (looked : m.Looked (windowsOf record) m') :
      WakeMove config now record m action m' (windowsOf record)
  | reap {action : Action} {m' : Manager} (looked : m.Looked (windowsOf record) m')
      (due : m.ReapsNow config now record action) :
      WakeMove config now record m action m' (windowsOf record ++ [openWindow .failed now])
  | write {m' : Manager} {work : Work} (next : m.point = .writing work)
      (windows : m'.windows = coalesced config now work.appends m.windows)
      (pending : m'.pending = m.pending) :
      WakeMove config now record m .access m' (mergeWindows (windowsOf record) m'.windows)
  | mark {m' : Manager} {marks : Marks} (windows : m'.windows = marks.handle now m.windows)
      (pending : m'.pending = m.pending) :
      WakeMove config now record m (.mark marks) m' (marks.handle now (windowsOf record))

theorem Manager.mark_moves (marks : Marks) :
    WakeMove config now record m (.mark marks) (m.mark now record marks).1
      (windowsOf (m.mark now record marks).2) := by
  have disk : windowsOf (m.mark now record marks).2 = marks.handle now (windowsOf record) := by
    cases record with
    | none => rfl
    | some stored => rfl
  have windows : (m.mark now record marks).1.windows = marks.handle now m.windows := by
    obtain ⟨entry, point, pending, launching⟩ := m
    cases entry with
    | none => rfl
    | some e => rfl
  rw [disk]
  exact .mark windows rfl

theorem Manager.access_moves (found : m.entry = some e) :
    WakeMove config now record m .access (m.access config now record e).1
      (windowsOf (m.access config now record e).2) := by
  unfold Manager.access
  split
  · exact .look ⟨.inl rfl, .inl rfl⟩
  · exact .look (looked_refresh found _)
  · rename_i call next
    obtain ⟨looked, disk | ⟨⟨stored, hstored, due⟩, disk⟩⟩ :=
      reap_windows config now record found call
    · rw [disk]
      exact .look looked
    · rw [disk]
      exact .reap looked ⟨rfl, by rw [next]; rfl, stored, hstored, due⟩
  · rename_i workerId process _
    obtain ⟨windows, pending, disk⟩ := claim_windows now record found workerId process
    rw [disk]
    exact .look ⟨.inl windows, .inl pending⟩
  · rename_i work next
    obtain ⟨windows, pending, disk⟩ := write_windows config now record found work
    rw [disk]
    exact .write next windows pending

theorem Manager.act_moves (config : BackgroundRunConfig) (now : Nat)
    (record : Option PersistedEntry) (m : Manager) (action : Action) :
    WakeMove config now record m action (m.act config now record action).1
      (windowsOf (m.act config now record action).2) := by
  rcases m.act_cases config now record action with
    ⟨rfl, h⟩ | ⟨marks, rfl, -, h⟩ | ⟨e, rfl, found, h⟩ | ⟨e, found, -, h⟩ | h
  · rw [h]
    exact .load load_windows.1 load_windows.2
  · rw [h]
    exact mark_moves marks
  · rw [h]
    exact access_moves found
  · rw [h]
    exact .look (looked_between found action _)
  · rw [h]
    exact .look ⟨.inl rfl, .inl rfl⟩

end Methods

/-! ## What every run keeps -/

/-- The copy and the report of a manager count no event that the record does not count. -/
structure Manager.Informed (disk : List WakeEntry) (m : Manager) : Prop where
  windows : Counted m.windows disk
  pending : Counted m.pending disk

section Moves

variable {config : BackgroundRunConfig} {now : Nat} {record : Option PersistedEntry}
  {m m' : Manager} {action : Action} {disk : List WakeEntry}

/-- No window on disk loses events or its mark. -/
theorem WakeMove.grows (move : WakeMove config now record m action m' disk) :
    Counted (windowsOf record) disk ∧ HandledIn (windowsOf record) disk := by
  cases move with
  | load => exact ⟨.of_subset fun _ h => h, .of_subset fun _ h => h⟩
  | look => exact ⟨.of_subset fun _ h => h, .of_subset fun _ h => h⟩
  | reap => exact ⟨.of_subset (List.subset_append_left ..), .of_subset (List.subset_append_left ..)⟩
  | write =>
      have left : windowsOf record ⊆ windowsOf record ++ m'.windows := List.subset_append_left ..
      exact ⟨(Counted.of_subset left).trans counted_merge,
        (HandledIn.of_subset left).trans handledIn_merge⟩
  | mark => exact ⟨counted_handle, handledIn_handle⟩

theorem Manager.Looked.informed (looked : m.Looked (windowsOf record) m')
    (informed : m.Informed (windowsOf record)) : m'.Informed (windowsOf record) := by
  obtain ⟨windows, pending⟩ := looked
  have known : Counted m'.windows (windowsOf record) := by
    rcases windows with h | h
    · rw [h]
      exact informed.windows
    · rw [h]
      exact .of_subset fun _ h => h
  refine ⟨known, ?_⟩
  rcases pending with h | h
  · rw [h]
    exact informed.pending
  · exact (Counted.of_subset h).trans known

theorem WakeMove.informed (move : WakeMove config now record m action m' disk)
    (informed : m.Informed (windowsOf record)) : m'.Informed disk := by
  have counted := move.grows.1
  cases move with
  | load windows pending =>
      refine ⟨.of_subset windows, ?_⟩
      rw [pending]
      exact .of_subset (List.nil_subset _)
  | look looked => exact looked.informed informed
  | reap looked _ =>
      have before := looked.informed informed
      exact ⟨before.windows.trans counted, before.pending.trans counted⟩
  | write next windows pending =>
      refine ⟨(Counted.of_subset (List.subset_append_right ..)).trans counted_merge, ?_⟩
      rw [pending]
      exact informed.pending.trans counted
  | mark windows pending =>
      refine ⟨?_, ?_⟩
      · rw [windows]
        exact (counted_of_handle.trans informed.windows).trans counted
      · rw [pending]
        exact informed.pending.trans counted

/-- A manager that marks nothing knows of a handled window only from the record. -/
theorem WakeMove.handledIn (move : WakeMove config now record m action m' disk)
    (unmarked : ∀ marks, action ≠ .mark marks)
    (known : HandledIn m.windows (windowsOf record)) : HandledIn m'.windows disk := by
  have looked (h : m.Looked (windowsOf record) m') : HandledIn m'.windows (windowsOf record) := by
    rcases h.1 with h | h
    · rw [h]
      exact known
    · rw [h]
      exact .of_subset fun _ h => h
  have grows := move.grows.2
  cases move with
  | load windows pending => exact .of_subset windows
  | look h => exact looked h
  | reap h _ => exact (looked h).trans grows
  | write next windows pending =>
      rw [windows] at grows ⊢
      exact ((handledIn_coalesced config now _ m.windows).trans known).trans grows
  | mark => exact absurd rfl (unmarked _)

/-- The window of an event waits on disk with at least the events that it then had: nobody
has handled it. -/
structure Waits (landed : WakeEntry) (disk : List WakeEntry) : Prop where
  found : ∃ w ∈ disk, w.key = landed.key
  unhandled : ∀ w ∈ disk, w.key = landed.key → w.handled = false
  counted : ∀ w ∈ disk, w.key = landed.key → landed.count ≤ w.count ∧ landed.lastAt ≤ w.lastAt

variable {landed : WakeEntry}

/-- An event that a manager writes waits, if the record has not handled its window. -/
theorem WakeMove.lands {work : Work} {lifecycle : BackgroundLifecycle} {kind : WakeKind}
    (appends : work.appends = [lifecycle]) (waking : wakes config lifecycle = some kind)
    (windows : m'.windows = coalesced config now work.appends m.windows)
    (known : HandledIn m.windows (windowsOf record))
    (isOpen : ∀ w ∈ windowsOf record, w.key = (landing kind now m.windows).key →
      w.handled = false) :
    Waits (landing kind now m.windows) (mergeWindows (windowsOf record) m'.windows) := by
  have coalesce : m'.windows =
      coalesceWindow config.maxWakeEntriesPerRun kind now m.windows := by
    simp [windows, appends, coalesced, coalesceWake, waking]
  obtain ⟨lands, others⟩ := coalesceWindow_spec config.maxWakeEntriesPerRun kind now m.windows
  rw [← coalesce] at lands others
  have landed_mem : landing kind now m.windows ∈ windowsOf record ++ m'.windows :=
    List.mem_append_right _ lands
  refine ⟨?_, ?_, ?_⟩
  · obtain ⟨w, hw, key, -⟩ := exists_mem_mergeWindows landed_mem
    exact ⟨w, hw, key⟩
  · intro w hw key
    by_contra handled
    obtain ⟨v, hv, same, marked⟩ := (joins_of_mem hw).handled.mp (by simpa using handled)
    rcases List.mem_append.mp hv with stored | copied
    · simp [isOpen v stored (same.trans key)] at marked
    · rcases others v copied with old | rfl
      · obtain ⟨u, hu, same', marked'⟩ := known v old marked
        simp [isOpen u hu ((same'.trans same).trans key)] at marked'
      · simp [(landing_spec kind now m.windows).2.1] at marked
  · intro w hw key
    exact ⟨(joins_of_mem hw).count _ landed_mem key.symm,
      (joins_of_mem hw).lastAt _ landed_mem key.symm⟩

/-- A waiting event waits on, unless its window is opened a second time or marked. -/
theorem WakeMove.waits (move : WakeMove config now record m action m' disk)
    (waits : Waits landed (windowsOf record))
    (known : ∀ work, m.point = .writing work → HandledIn m.windows (windowsOf record))
    (distinct : m.ReapsNow config now record action →
      ∀ w ∈ windowsOf record, w.key ≠ (.failed, now))
    (unmarked : ∀ marks, action = .mark marks →
      ∀ w ∈ windowsOf record, w.key = landed.key → marks.covers w = false) :
    Waits landed disk := by
  cases move with
  | load => exact waits
  | look => exact waits
  | reap _ due =>
      obtain ⟨w, hw, key⟩ := waits.found
      have other : (openWindow .failed now).key ≠ landed.key := by
        intro same
        exact distinct due w hw (key.trans same.symm)
      have old (v : WakeEntry) (hv : v ∈ windowsOf record ++ [openWindow .failed now])
          (same : v.key = landed.key) : v ∈ windowsOf record := by
        rcases List.mem_append.mp hv with hv | hv
        · exact hv
        · obtain rfl := List.mem_singleton.mp hv
          exact absurd same other
      exact ⟨⟨w, List.mem_append_left _ hw, key⟩,
        fun v hv same => waits.unhandled v (old v hv same) same,
        fun v hv same => waits.counted v (old v hv same) same⟩
  | write next windows _ =>
      have unhandled (v : WakeEntry) (hv : v ∈ windowsOf record ++ m'.windows)
          (same : v.key = landed.key) : v.handled = false := by
        by_contra handled
        have marked : v.handled = true := by simpa using handled
        have inDisk : HandledIn m'.windows (windowsOf record) := by
          rw [windows]
          exact (handledIn_coalesced config now _ m.windows).trans (known _ next)
        rcases List.mem_append.mp hv with hv | hv
        · exact handled (waits.unhandled v hv same)
        · obtain ⟨u, hu, key, marked⟩ := inDisk v hv marked
          simp [waits.unhandled u hu (key.trans same)] at marked
      obtain ⟨w, hw, key⟩ := waits.found
      have whole : w ∈ windowsOf record ++ m'.windows := List.mem_append_left _ hw
      obtain ⟨counted, late⟩ := waits.counted w hw key
      refine ⟨?_, ?_, ?_⟩
      · obtain ⟨v, hv, same, -⟩ := exists_mem_mergeWindows whole
        exact ⟨v, hv, same.trans key⟩
      · intro v hv same
        by_contra handled
        obtain ⟨u, hu, key', marked⟩ := (joins_of_mem hv).handled.mp (by simpa using handled)
        simp [unhandled u hu (key'.trans same)] at marked
      · intro v hv same
        have joined := joins_of_mem hv
        exact ⟨Nat.le_trans counted (joined.count w whole (key.trans same.symm)),
          Nat.le_trans late (joined.lastAt w whole (key.trans same.symm))⟩
  | mark =>
      obtain ⟨w, hw, key⟩ := waits.found
      refine ⟨?_, ?_, ?_⟩
      · obtain ⟨v, hv, same, -⟩ := exists_mem_handle _ _ hw
        exact ⟨v, hv, same.trans key⟩
      · intro v hv same
        obtain ⟨u, hu, key', -, -, marked⟩ := mem_handle hv
        by_contra handled
        rcases marked (by simpa using handled) with h | h
        · simp [waits.unhandled u hu (key'.trans same)] at h
        · simp [unmarked _ rfl u hu (key'.trans same)] at h
      · intro v hv same
        obtain ⟨u, hu, key', count, lastAt, -⟩ := mem_handle hv
        rw [← count, ← lastAt]
        exact waits.counted u hu (key'.trans same)

end Moves

/-! ## The owner -/

/-- The looks of an owner that runs turns. -/
def Call.looks : Call → Bool
  | .observe | .pendingWakes => true
  | _ => false

/-- What an owner does that looks at the run, runs turns and marks reported windows. -/
def Action.watches : Action → Bool
  | call method => method.looks
  | access | launched | mark (.exact _) => true
  | _ => false

def Action.marked : Action → List WakeEntry
  | mark (.exact wakes) => wakes
  | _ => []

def Action.marks : Action → Bool
  | mark _ => true
  | _ => false

/-- Such an owner writes its copy only when it creates the run. -/
def Point.Watches (windows : List WakeEntry) : Point → Prop
  | idle => True
  | reading call | reaping call => call.looks = true
  | writing (.create none) => windows = []
  | _ => False

theorem Point.Watches.nil {work : Work} {windows : List WakeEntry}
    (h : (Point.writing work).Watches windows) : windows = [] := by
  unfold Point.Watches at h
  split at h <;> simp_all

section Owner

variable {config : BackgroundRunConfig} {now : Nat} {record : Option PersistedEntry}
  {m : Manager} {e : Entry}

theorem Manager.resume_looks {call : Call} (looks : call.looks = true) (e : Entry) :
    (m.resume config e call).point = .idle := by
  cases call <;> first | rfl | cases looks

theorem Manager.refresh_watches {call : Call} (looks : call.looks = true)
    (windows : List WakeEntry) :
    (m.refresh config now record e call).point.Watches windows := by
  have resumed (m : Manager) (e : Entry) : (m.resume config e call).point.Watches windows := by
    rw [resume_looks looks]
    trivial
  unfold Manager.refresh
  split
  · exact resumed m e
  · split
    · cases call <;> trivial
    · split
      · exact resumed m e
      · dsimp only
        split
        · exact looks
        · exact resumed _ _

theorem Manager.act_watches (config : BackgroundRunConfig) (now : Nat)
    (record : Option PersistedEntry) {action : Action} (watches : m.point.Watches m.windows)
    (allowed : action.watches = true) :
    (m.act config now record action).1.point.Watches (m.act config now record action).1.windows := by
  rcases m.act_cases config now record action with
    ⟨rfl, -⟩ | ⟨marks, rfl, idle, h⟩ | ⟨e, rfl, found, h⟩ | ⟨e, found, idle, h⟩ | h
  · cases allowed
  · rw [h]
    simp only [Manager.mark, idle]
    trivial
  · rw [h]
    unfold Manager.access
    split
    · exact watches
    · rename_i call next
      rw [next] at watches
      exact refresh_watches watches _
    · rename_i call next
      rw [next] at watches
      unfold Manager.reap
      dsimp only
      split
      · rw [resume_looks watches]
        trivial
      · split
        · exact watches
        · rw [resume_looks watches]
          trivial
    · rename_i next
      rw [next] at watches
      cases watches
    · rename_i work next
      rw [next] at watches
      unfold Point.Watches at watches
      split at watches <;> simp_all [Manager.write, Work.next, Point.Watches]
  · rw [h]
    cases action with
    | call method =>
        simp only [Manager.between, Manager.call]
        split
        · rw [resume_looks allowed]
          trivial
        · exact allowed
    | access => exact watches
    | launched => exact watches
    | mark marks => exact watches
    | _ => cases allowed
  · rw [h]
    exact watches

end Owner

/-! ## The system -/

namespace World

def windows (world : World) : List WakeEntry := windowsOf world.record

structure Informed (world : World) : Prop where
  managers : ∀ p, (world.managers p).Informed world.windows
  workers : ∀ p, p ≠ 0 → HandledIn (world.managers p).windows world.windows
  owner : (world.managers 0).point.Watches (world.managers 0).windows

/-- The owner looks, and marks windows of a snapshot; nobody else marks. -/
def Turns (snapshot : List WakeEntry) (event : Event) : Prop :=
  if event.manager = 0 then
    event.action.watches = true ∧ ∀ w ∈ event.action.marked, w ∈ snapshot
  else event.action.marks = false

instance (snapshot : List WakeEntry) (event : Event) : Decidable (Turns snapshot event) := by
  unfold Turns
  infer_instance

variable {config : BackgroundRunConfig} {world : World} {event : Event}
  {snapshot : List WakeEntry}

theorem informed_initial : (initial none).Informed := by
  have empty (p : Nat) : ((initial none).managers p).windows = [] ∧
      ((initial none).managers p).pending = [] := by
    by_cases owner : p = 0
    · subst owner
      exact ⟨rfl, rfl⟩
    · simp [initial, owner, Manager.windows]
  refine ⟨fun p => ⟨?_, ?_⟩, fun p _ => ?_, rfl⟩
  · rw [(empty p).1]
    exact .of_subset (List.nil_subset _)
  · rw [(empty p).2]
    exact .of_subset (List.nil_subset _)
  · rw [(empty p).1]
    exact .of_subset (List.nil_subset _)

/-- The step of a world is a move of one manager. -/
theorem apply_moves (config : BackgroundRunConfig) (world : World) (event : Event) :
    WakeMove config event.now world.record (world.managers event.manager) event.action
      ((world.apply config event).managers event.manager) (world.apply config event).windows := by
  have moved := (world.managers event.manager).act_moves config event.now world.record event.action
  simpa [World.apply, windows] using moved

theorem apply_other (config : BackgroundRunConfig) {p : Nat} (other : p ≠ event.manager) :
    (world.apply config event).managers p = world.managers p := Function.update_of_ne other ..

theorem Informed.apply (informed : world.Informed) (turns : Turns snapshot event) :
    (world.apply config event).Informed := by
  have move := apply_moves config world event
  have grows := move.grows
  refine ⟨fun p => ?_, fun p worker => ?_, ?_⟩
  · by_cases here : p = event.manager
    · subst here
      exact move.informed (informed.managers _)
    · rw [apply_other config here]
      exact ⟨(informed.managers p).windows.trans grows.1, (informed.managers p).pending.trans grows.1⟩
  · by_cases here : p = event.manager
    · subst here
      refine move.handledIn (fun marks marking => ?_) (informed.workers _ worker)
      simp [Turns, worker, marking, Action.marks] at turns
    · rw [apply_other config here]
      exact (informed.workers p worker).trans grows.2
  · by_cases here : 0 = event.manager
    · have owner := Manager.act_watches config event.now world.record informed.owner
        (by simp [Turns, ← here] at turns; exact turns.1)
      simpa [World.apply, here] using owner
    · rw [apply_other config here]
      exact informed.owner

/-- A worker writes an event that wakes its owner. -/
structure Appends (config : BackgroundRunConfig) (world : World) (event : Event)
    (kind : WakeKind) : Prop where
  worker : event.manager ≠ 0
  writes : event.action = .access
  copy : (world.managers event.manager).entry ≠ none
  event : ∃ work lifecycle, (world.managers event.manager).point = .writing work ∧
    work.appends = [lifecycle] ∧ wakes config lifecycle = some kind

/-- The window in which the event lands, with the event. -/
def landed (world : World) (event : Event) (kind : WakeKind) : WakeEntry :=
  landing kind event.now (world.managers event.manager).windows

/-- The record has not handled the window of the event, and the owner's snapshot has not
counted as many events of it, up to as late a time. -/
def LandsOpen (world : World) (event : Event) (kind : WakeKind) : Prop :=
  (∀ w ∈ world.windows, w.key = (world.landed event kind).key → w.handled = false) ∧
    ∀ s ∈ (world.managers 0).pending, s.key = (world.landed event kind).key →
      s.count < (world.landed event kind).count ∨ s.lastAt < event.now

instance (world : World) (event : Event) (kind : WakeKind) :
    Decidable (world.LandsOpen event kind) := inferInstanceAs (Decidable (_ ∧ _))

/-- A reap opens a window that the record does not have. -/
def Distinct (config : BackgroundRunConfig) (world : World) (event : Event) : Prop :=
  (world.managers event.manager).ReapsNow config event.now world.record event.action →
    ∀ w ∈ world.windows, w.key ≠ (.failed, event.now)

instance (config : BackgroundRunConfig) (world : World) (event : Event) :
    Decidable (world.Distinct config event) := by
  unfold Distinct Manager.ReapsNow
  infer_instance

theorem Informed.lands (informed : world.Informed) {kind : WakeKind}
    (appends : world.Appends config event kind) (isOpen : world.LandsOpen event kind) :
    Waits (world.landed event kind) (world.apply config event).windows := by
  obtain ⟨manager, now, action⟩ := event
  obtain ⟨worker, rfl, copy, work, lifecycle, next, appended, waking⟩ := appends
  obtain ⟨e, found⟩ := Option.ne_none_iff_exists'.mp copy
  obtain ⟨windows, -, disk⟩ := Manager.write_windows config now world.record found work
  have written : (world.managers manager).act config now world.record .access =
      (world.managers manager).write config now world.record e work := by
    unfold Manager.act
    simp [found, Manager.access, next]
  have lands := WakeMove.lands appended waking windows (informed.workers manager worker) isOpen.1
  simpa [World.apply, World.windows, World.landed, written, disk] using lands

/-- A mark of windows that the snapshot reported does not cover an event after it. -/
theorem LandsOpen.unmarked {kind : WakeKind} (isOpen : world.LandsOpen event kind)
    {disk : List WakeEntry} (waits : Waits (world.landed event kind) disk) {wakes : List WakeEntry}
    (reported : ∀ w ∈ wakes, w ∈ (world.managers 0).pending) {w : WakeEntry} (hw : w ∈ disk)
    (key : w.key = (world.landed event kind).key) : (Marks.exact wakes).covers w = false := by
  by_contra covered
  have some_mark : (Marks.exact wakes).covers w = true := by simpa using covered
  simp only [Marks.covers, List.any_eq_true, Bool.and_eq_true, beq_iff_eq] at some_mark
  obtain ⟨s, hs, ⟨⟨same_kind, same_first⟩, same_last⟩, same_count⟩ := some_mark
  have same : s.key = (world.landed event kind).key := by
    rw [← key]
    exact Prod.ext same_kind same_first
  obtain ⟨counted, late⟩ := waits.counted w hw key
  have now_eq : (world.landed event kind).lastAt = event.now := (landing_spec ..).2.2
  rcases isOpen.2 s (reported s hs) same with fewer | earlier
  · omega
  · omega

/-- An event that lands in an open window waits until its owner looks again. -/
theorem wake_kept {before after : List Event} {later : World} {kind : WakeKind}
    (run : Run (Guarded (Steps config) fun world event =>
      Turns (world.managers 0).pending event) (initial none) before world)
    (appends : world.Appends config event kind) (isOpen : world.LandsOpen event kind)
    (rest : Run (Guarded (Steps config) fun later event =>
      Turns (world.managers 0).pending event ∧ later.Distinct config event)
      (world.apply config event) after later) :
    ∃ w ∈ later.windows, w.kind = kind ∧ w.handled = false ∧ event.now ≤ w.lastAt ∧
      (world.landed event kind).count ≤ w.count := by
  have informed : world.Informed := by
    refine run.invariant (I := Informed) ?_ informed_initial
    rintro a step b informed ⟨turns, rfl⟩
    exact informed.apply turns
  have turned : Turns (world.managers 0).pending event := by
    simp [Turns, appends.worker, appends.writes, Action.marks]
  have kept : later.Informed ∧ Waits (world.landed event kind) later.windows := by
    refine rest.invariant (I := fun w => w.Informed ∧ Waits (world.landed event kind) w.windows)
      ?_ ⟨informed.apply turned, informed.lands appends isOpen⟩
    rintro a step b ⟨known, waits⟩ ⟨⟨turns, distinct⟩, rfl⟩
    refine ⟨known.apply turns, (apply_moves config a step).waits waits ?_ distinct ?_⟩
    · intro work next
      by_cases owner : step.manager = 0
      · have watches := known.owner
        rw [← owner, next] at watches
        rw [watches.nil]
        exact .of_subset (List.nil_subset _)
      · exact known.workers _ owner
    · intro marks marking w hw key
      by_cases owner : step.manager = 0
      · simp only [Turns, owner, if_true, marking] at turns
        cases marks with
        | kinds named => cases turns.1
        | exact wakes => exact isOpen.unmarked waits turns.2 hw key
      · simp [Turns, owner, marking, Action.marks] at turns
  obtain ⟨w, hw, key⟩ := kept.2.found
  obtain ⟨counted, late⟩ := kept.2.counted w hw key
  obtain ⟨kind_eq, -, now_eq⟩ := landing_spec kind event.now (world.managers event.manager).windows
  refine ⟨w, hw, ?_, kept.2.unhandled w hw key, ?_, counted⟩
  · exact (congrArg Prod.fst key).trans kind_eq
  · exact now_eq ▸ late

def freeStep : StepCost := ⟨.code, .finite 0⟩

/-- The owner takes its snapshot between two stages of the worker. -/
def snapshotScript : List Event :=
  startedScript ++ [⟨1, 8, .promise (.stage freeStep)⟩, ⟨1, 8, .access⟩,
    ⟨0, 9, .call .pendingWakes⟩, ⟨0, 9, .access⟩]

/-- The owner marks what it has seen. -/
def markEvent : Event := ⟨0, 10, .mark (.exact [⟨.stageChanged, 8, 8, 1, false, none⟩])⟩

/-- The second stage comes before the mark. -/
def overtakingScript : List Event := snapshotScript ++ [⟨1, 9, .promise (.stage freeStep)⟩]

/-- A stage of the first worker is what comes next. -/
def stageNext (world : World) : Bool :=
  (world.managers 1).entry.isSome && match (world.managers 1).point with
    | .writing (.stage _) => true
    | _ => false

theorem appends_of_stageNext {world : World} (h : world.stageNext = true) (now : Nat) :
    world.Appends plainConfig ⟨1, now, .access⟩ .stageChanged := by
  simp only [stageNext, Bool.and_eq_true] at h
  obtain ⟨copy, next⟩ := h
  split at next
  · rename_i step point
    exact ⟨Nat.one_ne_zero, rfl, Option.isSome_iff_ne_none.mp copy, .stage step, .stageChanged,
      point, rfl, rfl⟩
  · cases next

theorem wake_kept_overtakingScript :
    ∃ w ∈ (([markEvent].foldl (apply plainConfig) ((overtakingScript.foldl (apply plainConfig)
        (initial none)).apply plainConfig ⟨1, 9, .access⟩))).windows,
      w.kind = .stageChanged ∧ w.handled = false ∧ 9 ≤ w.lastAt := by
  obtain ⟨w, hw, kind, unhandled, late, -⟩ := wake_kept
    (Run.guarded_foldl (fun _ _ => of_decide_eq_true) (by decide +kernel :
      Run.checked (apply plainConfig)
        (fun world event => decide (Turns (world.managers 0).pending event))
        (initial none) overtakingScript = true))
    (appends_of_stageNext (by decide +kernel) 9) (by decide +kernel)
    (Run.guarded_foldl (fun _ _ => of_decide_eq_true) (by decide +kernel :
      Run.checked (apply plainConfig)
        (fun later event => decide (Turns ((overtakingScript.foldl (apply plainConfig)
          (initial none)).managers 0).pending event ∧ later.Distinct plainConfig event))
        ((overtakingScript.foldl (apply plainConfig) (initial none)).apply plainConfig
          ⟨1, 9, .access⟩) [markEvent] = true))
  exact ⟨w, hw, kind, unhandled, late⟩

/-- The second stage comes after the mark. -/
def overtakenScript : List Event :=
  snapshotScript ++ [markEvent, ⟨1, 11, .promise (.stage freeStep)⟩]

theorem wake_kept_refuted :
    ¬ ∀ config before after world event kind later,
      Run (Guarded (Steps config) fun world event =>
        event.manager ≤ 1 ∧ Turns (world.managers 0).pending event) (initial none) before world →
      event.manager ≤ 1 → world.Appends config event kind →
      Run (Guarded (Steps config) fun _ later =>
        later.manager ≤ 1 ∧ Turns (world.managers 0).pending later)
        (world.apply config event) after later →
      ∃ w ∈ later.windows, w.kind = kind ∧ w.handled = false := by
  intro kept
  have handled : ∀ w ∈ ((overtakenScript.foldl (apply plainConfig) (initial none)).apply
      plainConfig ⟨1, 11, .access⟩).windows, w.handled = true := by decide +kernel
  obtain ⟨w, hw, -, unhandled⟩ := kept plainConfig _ _ _ _ .stageChanged _
    (Run.guarded_foldl (fun _ _ => of_decide_eq_true) (by decide +kernel :
      Run.checked (apply plainConfig)
        (fun world event => decide (event.manager ≤ 1 ∧ Turns (world.managers 0).pending event))
        (initial none) overtakenScript = true))
    (by decide) (appends_of_stageNext (by decide +kernel) 11) (.refl _)
  simp [handled w hw] at unhandled

end World

end AdCoder.BackgroundRuns
