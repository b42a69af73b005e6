import AdCoder.RunStop.SafeStops

/-!
# The identity checks

The checks only look, and they pass exactly where every read finds what the
record says.
-/

namespace AdCoder.RunStop

open Foundation Effect

variable {evolution : Evolution} {identity : RunProcessIdentity} {targetDir : String}
  {cmdlineWitness : Option (String × String)}

theorem observe_looks {α : Type} {see : Moment → α} {record : α → Event}
    (look : ∀ a, (record a).isLook) :
    Preserves (fun progress => ∀ event ∈ progress.events, event.isLook)
      (observe evolution see record) := by
  intro progress looks
  rw [runOn_observe, Progress.call_events, List.forall_mem_cons]
  exact ⟨look _, looks⟩

theorem processIsAlive_looks (pid : Nat) :
    Preserves (fun progress => ∀ event ∈ progress.events, event.isLook)
      (processIsAlive evolution pid) :=
  (observe_looks fun _ => rfl).andThen fun _ => .returns _

theorem verifyCommandLine_looks (stat : Option ProcessStat) (checked : Checked) :
    Preserves (fun progress => ∀ event ∈ progress.events, event.isLook)
      (verifyCommandLine evolution identity targetDir cmdlineWitness stat checked) :=
  (observe_looks fun _ => rfl).andThen fun _ => .returns _

theorem verifyBirth_looks (stat : Option ProcessStat) (checked : Checked) :
    Preserves (fun progress => ∀ event ∈ progress.events, event.isLook)
      (verifyBirth evolution identity targetDir cmdlineWitness stat checked) := by
  rw [verifyBirth]
  cases identity.procfsCtimeNs with
  | none => exact verifyCommandLine_looks _ _
  | some recorded =>
      apply Preserves.andThen (observe_looks fun _ => rfl)
      intro current
      cases current with
      | none => exact .returns _
      | some current => exact .branch (fun _ => verifyCommandLine_looks _ _) fun _ => .returns _

variable (evolution identity targetDir cmdlineWitness) in
/-- The identity checks only look. -/
theorem verifyStopTarget_looks :
    Preserves (fun progress => ∀ event ∈ progress.events, event.isLook)
      (verifyStopTarget evolution identity targetDir cmdlineWitness) := by
  apply Preserves.andThen (processIsAlive_looks _)
  intro alive
  apply Preserves.branch
  · intro _
    apply Preserves.andThen (observe_looks fun _ => rfl)
    intro stat
    refine Preserves.branch (fun _ => .returns _) fun _ => ?_
    exact .branch (fun _ => .returns _) fun _ => verifyBirth_looks _ _
  · intro _
    exact .returns _

theorem commandLineVerdict_eq_ok {stat : Option ProcessStat} {checked : Checked}
    {argv : Option (List String)} {live : LiveProcessIdentity} :
    commandLineVerdict identity targetDir cmdlineWitness stat checked argv = .ok live ↔
      ∃ words, argv = some words ∧ words.contains targetDir ∧
        witnessInArgv cmdlineWitness words ∧
          live = ⟨identity.pid, words, stat.map (·.startTime), stat.map (·.groupId),
            stat.map (·.state)⟩ := by
  cases argv with
  | none => simp [commandLineVerdict]
  | some words =>
      simp only [commandLineVerdict, Option.some.injEq, exists_eq_left']
      cases named : words.contains targetDir with
      | false => simp
      | true =>
          cases witnessed : witnessInArgv cmdlineWitness words with
          | false => simp
          | true => simp [eq_comm]

/-- The reads of identity checks that passed, latest first. -/
def readsMade (evolution : Evolution) (identity : RunProcessIdentity) : List Event :=
  .argv (((evolution (argvCall identity 0)).process? identity.pid).bind (·.argv)) ::
    (identity.procfsCtimeNs.toList.map fun _ =>
      .ctime (((evolution 2).process? identity.pid).bind (·.procfsCtimeNs))) ++
    [.stat (statAt evolution identity.pid 1), .probed ((evolution 0).process? identity.pid)]

/-- A stop before its first system call. -/
def Progress.start (now : Nat) : Progress := ⟨0, now, []⟩

theorem runOn_verifyCommandLine (stat : Option ProcessStat) (checked : Checked)
    (progress : Progress) :
    (verifyCommandLine evolution identity targetDir cmdlineWitness stat checked).runOn progress =
      (.ok (commandLineVerdict identity targetDir cmdlineWitness stat checked
        (((evolution progress.calls).process? identity.pid).bind (·.argv))),
        progress.call evolution
          (.argv (((evolution progress.calls).process? identity.pid).bind (·.argv)))) := rfl

/-- The birth is read where the record has one. -/
def birthRead (evolution : Evolution) (identity : RunProcessIdentity) (progress : Progress) :
    Progress :=
  match identity.procfsCtimeNs with
  | none => progress
  | some _ => progress.call evolution
      (.ctime (((evolution progress.calls).process? identity.pid).bind (·.procfsCtimeNs)))

variable (targetDir cmdlineWitness) in
/-- The birth is compared where the record has one, and the command line is read after it. -/
theorem runOn_verifyBirth (stat : Option ProcessStat) (checked : Checked) (progress : Progress)
    (same : ∀ recorded ∈ identity.procfsCtimeNs,
      ((evolution progress.calls).process? identity.pid).bind (·.procfsCtimeNs) = some recorded) :
    ∃ checked', (verifyBirth evolution identity targetDir cmdlineWitness stat checked).runOn
        progress =
      (verifyCommandLine evolution identity targetDir cmdlineWitness stat checked').runOn
        (birthRead evolution identity progress) := by
  rw [verifyBirth, birthRead]
  cases birth : identity.procfsCtimeNs with
  | none => exact ⟨_, rfl⟩
  | some recorded =>
      dsimp only
      rw [runOn_bind, runOn_readProcessProcfsCtimeNs]
      simp only [same recorded birth, beq_self_eq_true, if_true]
      exact ⟨_, rfl⟩

theorem sameBirth_of_ok {stat : Option ProcessStat} {checked : Checked} {progress : Progress}
    {live : LiveProcessIdentity}
    (passed : ((verifyBirth evolution identity targetDir cmdlineWitness stat checked).runOn
      progress).1 = .ok (.ok live)) :
    ∀ recorded ∈ identity.procfsCtimeNs,
      ((evolution progress.calls).process? identity.pid).bind (·.procfsCtimeNs) =
        some recorded := by
  intro recorded birth
  rw [Option.mem_def] at birth
  simp only [verifyBirth, birth] at passed
  rw [runOn_bind, runOn_readProcessProcfsCtimeNs] at passed
  cases current : ((evolution progress.calls).process? identity.pid).bind (·.procfsCtimeNs) with
  | none => simp [current] at passed
  | some found =>
      simp only [current] at passed
      split_ifs at passed with same
      · rw [beq_iff_eq.mp same]
      · simp at passed

theorem calls_birthRead (progress : Progress) (first : Nat) (two : progress.calls = first + 2) :
    (birthRead evolution identity progress).calls = argvCall identity first := by
  rw [birthRead, argvCall]
  cases identity.procfsCtimeNs <;> simp [two]

theorem startTimeMatches_some {startTime : String} {stat : Option ProcessStat}
    (recorded : identity.startTime = some startTime) :
    startTimeMatches identity stat ≠ some false ↔
      ∀ live ∈ stat, live.startTime = startTime := by
  cases stat <;> simp [startTimeMatches, recorded]

/-- The live identity that checks that pass report. -/
def liveAt (evolution : Evolution) (identity : RunProcessIdentity) (argv : List String) :
    LiveProcessIdentity :=
  let stat := statAt evolution identity.pid 1
  ⟨identity.pid, argv, stat.map (·.startTime), stat.map (·.groupId), stat.map (·.state)⟩

variable (targetDir cmdlineWitness) in
/-- The state and the start time are those of the record, as far as they can be read. -/
theorem runOn_verifyStopTarget_of_alive (now : Nat)
    (alive : ((evolution 0).process? identity.pid).isSome)
    (noZombie : ∀ stat ∈ statAt evolution identity.pid 1, stat.state ≠ "Z")
    (same : startTimeMatches identity (statAt evolution identity.pid 1) ≠ some false) :
    ∃ checked, (verifyStopTarget evolution identity targetDir cmdlineWitness).runOn (.start now) =
      (verifyBirth evolution identity targetDir cmdlineWitness
        (statAt evolution identity.pid 1) checked).runOn
        (((Progress.start now).call evolution (.probed ((evolution 0).process? identity.pid))).call
          evolution (.stat (statAt evolution identity.pid 1))) := by
  have zombie : (statAt evolution identity.pid 1).any (·.state == "Z") = false := by
    cases found : statAt evolution identity.pid 1 with
    | none => rfl
    | some stat => simpa using noZombie stat found
  rw [verifyStopTarget, runOn_bind, runOn_processIsAlive]
  simp only [Progress.start, alive, if_true]
  rw [runOn_bind, runOn_readProcessStat]
  simp only [Progress.call_calls, Nat.zero_add]
  rw [← statAt]
  simp only [zombie, same, if_false, Bool.false_eq_true]
  exact ⟨_, rfl⟩

theorem progress_readsMade (now : Nat) :
    (birthRead evolution identity
      (((Progress.start now).call evolution (.probed ((evolution 0).process? identity.pid))).call
        evolution (.stat (statAt evolution identity.pid 1)))).call evolution
      (.argv (((evolution (argvCall identity 0)).process? identity.pid).bind (·.argv))) =
    ⟨argvCall identity 0 + 1, clockAfter evolution now (argvCall identity 0 + 1),
      readsMade evolution identity⟩ := by
  cases birth : identity.procfsCtimeNs with
  | none => simp only [birthRead, readsMade, argvCall, birth]; rfl
  | some recorded => simp only [birthRead, readsMade, argvCall, birth]; rfl

/-- The checks pass where each read finds what it must. -/
theorem runOn_verifyStopTarget (identified : Identified evolution identity targetDir
    cmdlineWitness 0) (now : Nat) :
    ∃ argv, (verifyStopTarget evolution identity targetDir cmdlineWitness).runOn (.start now) =
      (.ok (.ok (liveAt evolution identity argv)),
        ⟨argvCall identity 0 + 1, clockAfter evolution now (argvCall identity 0 + 1),
          readsMade evolution identity⟩) := by
  obtain ⟨argv, read, named, witnessed⟩ := identified.named
  obtain ⟨checked, run⟩ := runOn_verifyStopTarget_of_alive targetDir cmdlineWitness now
    identified.alive identified.noZombie identified.sameStart
  obtain ⟨checked', birth⟩ := runOn_verifyBirth targetDir cmdlineWitness
    (statAt evolution identity.pid 1) checked
    (((Progress.start now).call evolution _).call evolution _) identified.sameBirth
  refine ⟨argv, ?_⟩
  rw [run, birth, runOn_verifyCommandLine, calls_birthRead _ 0 rfl, read]
  congr 1
  · rw [commandLineVerdict_eq_ok.mpr ⟨argv, rfl, named, witnessed, rfl⟩]
    rfl
  · rw [← read, progress_readsMade]

/-- Checks that pass found what they must. -/
theorem identified_of_ok {live : LiveProcessIdentity} {now : Nat}
    (passed : ((verifyStopTarget evolution identity targetDir cmdlineWitness).runOn
      (.start now)).1 = .ok (.ok live)) :
    Identified evolution identity targetDir cmdlineWitness 0 := by
  have seen := passed
  rw [verifyStopTarget, runOn_bind, runOn_processIsAlive] at seen
  cases alive : ((evolution 0).process? identity.pid).isSome with
  | false => simp [Progress.start, alive] at seen
  | true =>
      simp only [Progress.start, alive, if_true] at seen
      rw [runOn_bind, runOn_readProcessStat] at seen
      simp only [Progress.call_calls, Nat.zero_add] at seen
      rw [← statAt] at seen
      split_ifs at seen with zombie same
      · simp at seen
      · simp at seen
      have noZombie : ∀ stat ∈ statAt evolution identity.pid 1, stat.state ≠ "Z" :=
        fun stat found => by simpa [Option.mem_def.mp found] using zombie
      obtain ⟨checked, run⟩ := runOn_verifyStopTarget_of_alive targetDir cmdlineWitness now alive
        noZombie same
      rw [run] at passed
      have sameBirth := sameBirth_of_ok passed
      obtain ⟨checked', birth⟩ := runOn_verifyBirth targetDir cmdlineWitness
        (statAt evolution identity.pid 1) checked _ sameBirth
      rw [birth, runOn_verifyCommandLine, calls_birthRead _ 0 rfl] at passed
      obtain ⟨argv, read, named, witnessed, -⟩ :=
        commandLineVerdict_eq_ok.mp (Except.ok.inj passed)
      exact ⟨alive, noZombie, same, sameBirth, argv, read, named, witnessed⟩

end AdCoder.RunStop
