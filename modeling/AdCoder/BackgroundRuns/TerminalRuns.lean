import AdCoder.BackgroundRuns.Promises

/-!
# Terminal records

A method looks at its copy before it lets a run end or go on, and a copy may be
older than the record. While nobody writes an old copy over a terminal record,
and no failed launch or foreground resume is written over one, the lifecycle and
the outcome of a terminal record stay as they are.
-/

namespace AdCoder.BackgroundRuns

open Foundation Orchestration ProjectOperations

/-! ## Current copies -/

/-- The copy has the lifecycle and the outcome of the record. -/
def Entry.Current (record : PersistedEntry) (e : Entry) : Prop :=
  e.lifecycle = record.lifecycle ∧ e.outcome = record.outcome

instance (record : PersistedEntry) (e : Entry) : Decidable (e.Current record) :=
  inferInstanceAs (Decidable (_ ∧ _))

variable {config : BackgroundRunConfig} {now : Nat} {record : Option PersistedEntry}
  {m : Manager} {e : Entry}

theorem Work.run_of_keeps (config : BackgroundRunConfig) (now : Nat) {work : Work}
    (h : work.keeps = true) (e : Entry) :
    (work.run config now e).lifecycle = e.lifecycle ∧
      (work.run config now e).outcome = e.outcome := by
  cases work <;> simp_all [keeps, run, Entry.onStage, Entry.addStep, Entry.append, Entry.settle,
    Entry.heartbeat]

/-! ## What a step does to a terminal record -/

/-- A write of a copy finds a record that is not terminal, or a copy that agrees with it; a
failed launch and a foreground resume find a record that is not terminal, and a failed launch
a run without a promise here. -/
def Work.Upholds (record : Option PersistedEntry) (e : Entry) (work : Work) : Prop :=
  (∀ found ∈ record, found.lifecycle.isTerminal = true →
    e.Current found ∧ work.launchFailed = false ∧ work.projects = false) ∧
  work.Detached e

instance (record : Option PersistedEntry) (e : Entry) (work : Work) :
    Decidable (work.Upholds record e) := inferInstanceAs (Decidable (_ ∧ _))

/-- The record keeps a terminal lifecycle and its outcome. -/
def Absorbs (before after : Option PersistedEntry) : Prop :=
  ∀ found, before = some found → found.lifecycle.isTerminal = true →
    ∃ last, after = some last ∧ last.lifecycle = found.lifecycle ∧ last.outcome = found.outcome

theorem Absorbs.refl (record : Option PersistedEntry) : Absorbs record record :=
  fun found h _ => ⟨found, h, rfl, rfl⟩

theorem Absorbs.trans {a b c : Option PersistedEntry} (first : Absorbs a b) (next : Absorbs b c) :
    Absorbs a c := by
  intro found h terminal
  obtain ⟨middle, hmiddle, lifecycle, outcome⟩ := first found h terminal
  obtain ⟨last, hlast, lifecycle', outcome'⟩ := next middle hmiddle (by rwa [lifecycle])
  exact ⟨last, hlast, lifecycle'.trans lifecycle, outcome'.trans outcome⟩

theorem absorbs_requested {found : PersistedEntry} (requested : found.lifecycle = .requested)
    (after : Option PersistedEntry) : Absorbs (some found) after := by
  rintro _ ⟨⟩ terminal
  rw [requested] at terminal
  cases terminal

theorem Manager.absorbs_write {work : Work} (suits : work.Suits e)
    (upholds : work.Upholds record e) :
    Absorbs record (m.write config now record e work).2 := by
  intro found h terminal
  obtain ⟨⟨lifecycle, outcome⟩, launched, other⟩ := upholds.1 found h terminal
  have keeps : work.keeps = true := by
    by_contra changes
    have running := suits.opened (by simp [Work.opens, launched, other, changes])
    rw [lifecycle, terminal] at running
    cases running
  have kept := Work.run_of_keeps config now keeps e
  exact ⟨_, rfl, kept.1.trans lifecycle, kept.2.trans outcome⟩

theorem Manager.absorbs_reap (call : Call) :
    Absorbs record (m.reap config now record e call).2 := by
  unfold Manager.reap
  dsimp only
  split
  · exact .refl none
  · split
    · rename_i due
      refine absorbs_requested ?_ _
      simp only [reapDue, Bool.and_eq_true, beq_iff_eq] at due
      exact due.1.1
    · exact .refl _

theorem Manager.absorbs_claim (workerId : String) (process : RunProcessIdentity) :
    Absorbs record (m.claim now record e workerId process).2 := by
  unfold Manager.claim
  split
  · exact .refl none
  · split
    · exact absorbs_requested (‹_ ∧ _› : _ ∧ _).1 _
    · exact .refl _

theorem Manager.absorbs_mark (marks : Marks) : Absorbs record (m.mark now record marks).2 := by
  rintro found rfl terminal
  exact ⟨_, rfl, rfl, rfl⟩

theorem Manager.absorbs_access (sound : m.Sound) (found : m.entry = some e)
    (upholds : ∀ work, m.point = .writing work → work.Upholds record e) :
    Absorbs record (m.access config now record e).2 := by
  have point := sound.point e found
  unfold Manager.access
  split
  · exact .refl record
  · exact .refl record
  · exact absorbs_reap _
  · exact absorbs_claim _ _
  · rename_i work next
    rw [next] at point
    exact absorbs_write point (upholds work next)

theorem Manager.absorbs_act (config : BackgroundRunConfig) (now : Nat) (sound : m.Sound)
    {action : Action} (upholds : m.Writes (fun e work => work.Upholds record e) action) :
    Absorbs record (m.act config now record action).2 := by
  rcases m.act_cases config now record action with
    ⟨-, h⟩ | ⟨marks, -, -, h⟩ | ⟨e, rfl, found, h⟩ | ⟨e, found, -, h⟩ | h
  · rw [h]
    exact .refl record
  · rw [h]
    exact absorbs_mark marks
  · rw [h]
    refine absorbs_access sound found fun work next => upholds rfl e found work ?_
    rw [next]
    rfl
  · rw [h]
    exact .refl record
  · rw [h]
    exact .refl record

namespace World

/-- What the step writes upholds a terminal record. -/
def Upholds (world : World) (event : Event) : Prop :=
  (world.managers event.manager).Writes (fun e work => work.Upholds world.record e) event.action

instance (world : World) (event : Event) : Decidable (world.Upholds event) :=
  inferInstanceAs (Decidable (Manager.Writes _ _ _))

variable {world : World} {event : Event}

theorem Upholds.detached (upholds : world.Upholds event) : world.Detached event :=
  fun accesses e found work next => (upholds accesses e found work next).2

theorem Sound.absorbs (config : BackgroundRunConfig) (sound : world.Sound)
    (upholds : world.Upholds event) :
    Absorbs world.record (world.apply config event).record :=
  Manager.absorbs_act config event.now (sound event.manager) upholds

/-! ## Runs -/

/-- While the writes uphold it, a terminal record keeps its lifecycle and its outcome. -/
theorem terminal_absorbing {workerId : Option String} {before after : List Event}
    {world later : World}
    (run : Run (Guarded (Steps config) Upholds) (initial workerId) before world)
    (rest : Run (Guarded (Steps config) Upholds) world after later)
    {record : PersistedEntry} (written : world.record = some record)
    (terminal : record.lifecycle.isTerminal = true) :
    ∃ last, later.record = some last ∧ last.lifecycle = record.lifecycle ∧
      last.outcome = record.outcome := by
  have sound : world.Sound := by
    refine run.invariant (I := Sound) ?_ (sound_initial workerId)
    rintro a event b sound ⟨upholds, rfl⟩
    exact sound.apply config upholds.detached
  have kept : later.Sound ∧ Absorbs world.record later.record := by
    refine rest.invariant (I := fun w => w.Sound ∧ Absorbs world.record w.record) ?_
      ⟨sound, .refl _⟩
    rintro a event b ⟨sound, absorbs⟩ ⟨upholds, rfl⟩
    exact ⟨sound.apply config upholds.detached, absorbs.trans (sound.absorbs config upholds)⟩
  exact kept.2 record written terminal

/-- The executor fails. -/
def failedScript : List Event := startedScript ++ [⟨1, 8, .promise .fail⟩, ⟨1, 8, .access⟩]

/-- The worker settles, and the owner's cancellation finds that the run is over. -/
def settledScript : List Event :=
  [⟨1, 9, .settle⟩, ⟨1, 9, .access⟩, ⟨0, 10, .call .cancel⟩, ⟨0, 11, .access⟩]

/-- The lifecycle on disk. -/
def lifecycle? (world : World) : Option BackgroundLifecycle := world.record.map (·.lifecycle)

theorem terminal_absorbing_settledScript : ∃ record last,
    (failedScript.foldl (apply plainConfig) (initial none)).record = some record ∧
    (settledScript.foldl (apply plainConfig)
      (failedScript.foldl (apply plainConfig) (initial none))).record = some last ∧
    record.lifecycle = .failed ∧ last.lifecycle = record.lifecycle ∧
    last.outcome = record.outcome := by
  have failed : lifecycle? (failedScript.foldl (apply plainConfig) (initial none)) =
      some .failed := by decide +kernel
  obtain ⟨record, written, lifecycle⟩ := Option.map_eq_some_iff.mp failed
  obtain ⟨last, later, same⟩ := terminal_absorbing
    (Run.guarded_foldl (fun _ _ => of_decide_eq_true) (by decide +kernel :
      Run.checked (apply plainConfig) (fun world event => decide (world.Upholds event))
        (initial none) failedScript = true))
    (Run.guarded_foldl (fun _ _ => of_decide_eq_true) (by decide +kernel :
      Run.checked (apply plainConfig) (fun world event => decide (world.Upholds event))
        (failedScript.foldl (apply plainConfig) (initial none)) settledScript = true))
    written (by rw [lifecycle]; rfl)
  exact ⟨record, last, written, later, lifecycle, same⟩

/-- The owner cancels, before the worker's next heartbeat. -/
def cancelledScript : List Event :=
  startedScript ++ [⟨0, 8, .call .cancel⟩, ⟨0, 8, .access⟩, ⟨0, 9, .access⟩]

def heartbeatScript : List Event := [⟨1, 10, .heartbeat⟩, ⟨1, 10, .access⟩]

/-- An operation of one owner or one worker that is not a foreground resume. -/
def Listed (_ : World) (event : Event) : Prop :=
  event.manager ≤ 1 ∧ event.action.projects = false

instance (world : World) (event : Event) : Decidable (world.Listed event) :=
  inferInstanceAs (Decidable (_ ∧ _))

theorem terminal_absorbing_refuted :
    ¬ ∀ config workerId before after world later record,
      Run (Guarded (Steps config) Listed) (initial workerId) before world →
      Run (Guarded (Steps config) Listed) world after later →
      world.record = some record → record.lifecycle.isTerminal = true →
      ∃ last, later.record = some last ∧ last.lifecycle = record.lifecycle ∧
        last.outcome = record.outcome := by
  intro absorbing
  have cancelled : lifecycle? (cancelledScript.foldl (apply plainConfig) (initial none)) =
      some .cancelled := by decide +kernel
  have revived : lifecycle? (heartbeatScript.foldl (apply plainConfig)
      (cancelledScript.foldl (apply plainConfig) (initial none))) = some .started := by
    decide +kernel
  obtain ⟨record, written, lifecycle⟩ := Option.map_eq_some_iff.mp cancelled
  obtain ⟨last, later, same, -⟩ := absorbing plainConfig none _ _ _ _ record
    (Run.guarded_foldl (fun _ _ => of_decide_eq_true) (by decide +kernel :
      Run.checked (apply plainConfig) (fun world event => decide (world.Listed event))
        (initial none) cancelledScript = true))
    (Run.guarded_foldl (fun _ _ => of_decide_eq_true) (by decide +kernel :
      Run.checked (apply plainConfig) (fun world event => decide (world.Listed event))
        (cancelledScript.foldl (apply plainConfig) (initial none)) heartbeatScript = true))
    written (by rw [lifecycle]; rfl)
  simp only [lifecycle?, later, Option.map_some, same, lifecycle] at revived
  cases revived

end World

end AdCoder.BackgroundRuns
