import AdCoder.RunStop.IdentityChecks
import Mathlib.Tactic.ByContra

/-!
# Runs of a stop

From the first signal on: the polls, the escalation and the settling. The stop
is safe exactly under the evolutions described before.
-/

namespace AdCoder.RunStop

open Foundation Effect

variable {evolution : Evolution} {pid : Nat} {deadline : Int}

/-! ## Polls -/

section Polls

variable (evolution : Evolution) (pid : Nat)

def look (progress : Progress) : Progress :=
  progress.call evolution (.probed ((evolution progress.calls).process? pid))

def asleep (progress : Progress) : Progress :=
  { progress with now := progress.now + alivePollMs, events := .slept :: progress.events }

/-- `n + 1` looks with a sleep between each two. -/
def looks (progress : Progress) : Nat → Progress
  | 0 => look evolution pid progress
  | n + 1 => looks (asleep (look evolution pid progress)) n

end Polls

@[simp] theorem looks_calls (progress : Progress) (n : Nat) :
    (looks evolution pid progress n).calls = progress.calls + n + 1 := by
  induction n generalizing progress with
  | zero => rfl
  | succ n ih =>
      rw [looks, ih]
      simp only [asleep, look, Progress.call_calls]
      omega

@[simp] theorem looks_now (progress : Progress) (n : Nat) :
    (looks evolution pid progress n).now = lookTime evolution progress.calls progress.now n := by
  induction n generalizing progress with
  | zero => rfl
  | succ n ih =>
      rw [looks, ih]
      rfl

variable (evolution pid) in
/-- The last look is the latest event; sleeps and looks came before it. -/
theorem looks_events (progress : Progress) (n : Nat) :
    ∃ polled, (looks evolution pid progress n).events =
        .probed ((evolution (progress.calls + n)).process? pid) :: polled ++ progress.events ∧
      (∀ event ∈ polled, event.isLook) ∧ (n = 0 → polled = []) ∧
        (n ≠ 0 → ∀ answer, Event.stat answer ∉ sinceSleep (polled ++ progress.events)) := by
  induction n generalizing progress with
  | zero => exact ⟨[], rfl, by simp, fun _ => rfl, by simp⟩
  | succ n ih =>
      obtain ⟨polled, events, looked, none, unread⟩ := ih (asleep (look evolution pid progress))
      refine ⟨polled ++ [.slept, .probed ((evolution progress.calls).process? pid)], ?_, ?_, ?_, ?_⟩
      · rw [looks, events]
        simp [asleep, look, Nat.add_right_comm, Nat.add_assoc]
      · rw [List.forall_mem_append]
        exact ⟨looked, by simp [Event.isLook]⟩
      · simp
      · intro _ answer
        by_cases zero : n = 0
        · simp [none zero, sinceSleep]
        · simpa [asleep, look] using unread zero answer

/-- The poll sleeps as often as the deadline and the process table let it. -/
theorem runOn_pollWhileAlive (fuel : Nat) (progress : Progress) (positive : 0 < fuel)
    (enough : deadline - progress.now < fuel) :
    ∃ n, PollsFor evolution pid deadline progress.calls progress.now n ∧
      (pollWhileAlive evolution pid deadline fuel).runOn progress =
        (.ok (), looks evolution pid progress n) := by
  induction fuel generalizing progress with
  | zero => omega
  | succ fuel ih =>
      rw [pollWhileAlive, runOn_bind, runOn_processIsAlive]
      dsimp only
      rw [runOn_bind, runOn_dateNow]
      dsimp only
      split_ifs with sleeps
      · rw [runOn_bind]
        have ahead := sleeps.2
        rw [Progress.call_now] at ahead
        obtain ⟨n, polls, run⟩ := ih (asleep (look evolution pid progress)) (by omega) (by
          simp only [asleep, look, Progress.call_now, alivePollMs]
          omega)
        exact ⟨n + 1, ⟨sleeps, polls⟩, run⟩
      · exact ⟨0, sleeps, rfl⟩

variable (evolution pid) in
theorem runOn_waitForExit (deadline : Int) (progress : Progress) :
    ∃ n, PollsFor evolution pid deadline progress.calls progress.now n ∧
      (waitForExit evolution pid deadline).runOn progress =
        (.ok (), looks evolution pid progress n) := by
  rw [waitForExit, runOn_bind, runOn_dateNow]
  exact runOn_pollWhileAlive _ progress (by omega) (by omega)

/-- A poll ends after one number of sleeps. -/
theorem PollsFor.unique {call now n m : Nat} (left : PollsFor evolution pid deadline call now n)
    (right : PollsFor evolution pid deadline call now m) : n = m := by
  induction n generalizing call now m with
  | zero =>
      cases m with
      | zero => rfl
      | succ m => exact absurd right.1 left
  | succ n ih =>
      cases m with
      | zero => exact absurd left.1 right
      | succ m => rw [ih left.2 right.2]

/-! ## The escalation -/

section Escalation

variable {startTime : String} {kill : Bool} {kind : RecordKind} {groupId : Option Nat}

/-- The first signal was delivered, with the request on disk since before it. -/
structure Signalled (events : List Event) : Prop where
  witnessed : BeforeEachSignal (fun _ before => requestOnDisk before) events
  onDisk : requestOnDisk events
  delivered : ¬ NothingDelivered events
  signalled : events.any Event.isSignal

theorem Signalled.append {added events : List Event} (signalled : Signalled events)
    (looks : ∀ event ∈ added, event.isLook) : Signalled (added ++ events) where
  witnessed := (beforeEachSignal_append looks).mpr signalled.witnessed
  onDisk := (requestOnDisk_append looks).trans signalled.onDisk
  delivered := fun quiet => signalled.delivered ((nothingDelivered_append looks).mp quiet)
  signalled := (any_isSignal_append looks).trans signalled.signalled

theorem Signalled.probed {events : List Event} (signalled : Signalled events)
    (found : Option Process) : Signalled (.probed found :: events) :=
  signalled.append (by simp [Event.isLook] : ∀ event ∈ [Event.probed found], event.isLook)

theorem Signalled.again {events : List Event} (signalled : Signalled events) (value : Signal)
    (answer : KillAnswer) : Signalled (.signalled groupId value answer :: events) where
  witnessed := ⟨signalled.onDisk, signalled.witnessed⟩
  onDisk := signalled.onDisk
  delivered := fun quiet => signalled.delivered fun groupId value member =>
    quiet groupId value (List.mem_cons_of_mem _ member)
  signalled := by simp [Event.isSignal]

theorem Signalled.lastLook {events : List Event} (signalled : Signalled events)
    (found : Option Process) : lastLook (.probed found :: events) = some found := by
  rw [RunStop.lastLook, if_pos signalled.signalled]

/-- A call that ends without a confirmed death must have seen the process running. -/
theorem safe_unconfirmed {events : List Event} (signalled : Signalled events)
    {found : Option Process} (last : lastLook events = some found)
    {result : Except SystemError StopEnd} {calls now : Nat}
    (unstopped : ∀ ended, result = .ok ended → ended.stopped = false) :
    Safe pid startTime true (fun ended : StopEnd => ended.stopped) (result, ⟨calls, now, events⟩) ↔
      BeforeEachSignal (CheckedFor pid startTime) events ∧ Running startTime found := by
  constructor
  · intro safe
    refine ⟨safe.checked, ?_⟩
    by_contra absent
    obtain ⟨ended, ok, stopped⟩ := safe.reported rfl found last absent
    exact absurd (unstopped ended ok) (by simpa using stopped)
  · rintro ⟨checked, running⟩
    refine ⟨checked, signalled.witnessed, ?_, ?_⟩
    · rintro (quiet | free)
      · exact absurd quiet signalled.delivered
      · obtain ⟨process, member, -⟩ := running
        rw [last, Option.some.injEq] at free
        subst free
        cases member
    · intro _ seen again absent
      rw [last, Option.some.injEq] at again
      exact absurd (again ▸ running) absent

/-- A confirmed death is reported and its request is gone. -/
theorem safe_confirmed {events : List Event} (signalled : Signalled events)
    {ended : StopEnd} {calls now : Nat} (stopped : ended.stopped) :
    Safe pid startTime true (fun ended : StopEnd => ended.stopped)
        (.ok ended, ⟨calls, now, .consumed :: events⟩) ↔
      BeforeEachSignal (CheckedFor pid startTime) events :=
  ⟨fun safe => safe.checked, fun checked =>
    ⟨checked, signalled.witnessed, fun _ => rfl, fun _ _ _ _ => ⟨ended, rfl, stopped⟩⟩⟩

theorem freeOrRunning_of_some {call : Nat} {process : Process}
    (found : (evolution call).process? pid = some process) :
    FreeOrRunning evolution pid startTime call ↔ Running startTime (some process) := by
  simp [FreeOrRunning, found]

/-- After the last look the stop is safe if the signals were and the pid is free or the run's. -/
theorem safe_confirmExit (progress : Progress) (signalled : Signalled progress.events)
    (started : Nat) (escalated : Bool) :
    Safe pid startTime true (fun ended : StopEnd => ended.stopped)
        ((confirmExit evolution pid started escalated >>= settle kind pid groupId).runOn progress) ↔
      BeforeEachSignal (CheckedFor pid startTime) progress.events ∧
        FreeOrRunning evolution pid startTime progress.calls := by
  rw [runOn_bind, confirmExit, runOn_bind, runOn_processIsAlive]
  dsimp only
  rw [runOn_bind, runOn_dateNow]
  dsimp only [runOn_pure]
  have looked : ∀ found, BeforeEachSignal (CheckedFor pid startTime)
      (.probed found :: progress.events) ↔
        BeforeEachSignal (CheckedFor pid startTime) progress.events := fun _ => Iff.rfl
  cases found : (evolution progress.calls).process? pid with
  | none =>
      have free : FreeOrRunning evolution pid startTime progress.calls := .inl found
      simp only [free, and_true]
      exact (safe_confirmed (signalled.probed none) rfl).trans (looked none)
  | some process =>
      rw [freeOrRunning_of_some found]
      exact (safe_unconfirmed (signalled.probed _) (signalled.lastLook _)
        (by rintro _ ⟨⟩; rfl)).trans (and_congr_left' (looked _))

theorem PollsFor.forall_iff {call now n : Nat} {P : Nat → Prop}
    (polls : PollsFor evolution pid deadline call now n) :
    (∀ m, PollsFor evolution pid deadline call now m → P m) ↔ P n :=
  ⟨fun all => all n polls, fun holds _ other => polls.unique other ▸ holds⟩

variable (evolution pid) in
theorem looks_added (progress : Progress) (n : Nat) :
    ∃ added, (looks evolution pid progress n).events = added ++ progress.events ∧
      ∀ event ∈ added, event.isLook := by
  obtain ⟨polled, events, looked, -⟩ := looks_events evolution pid progress n
  exact ⟨.probed _ :: polled, events, List.forall_mem_cons.mpr ⟨rfl, looked⟩⟩

theorem beforeEachSignal_looks {P : Option Nat → List Event → Prop} (progress : Progress)
    (n : Nat) : BeforeEachSignal P (looks evolution pid progress n).events ↔
      BeforeEachSignal P progress.events := by
  obtain ⟨added, events, looked⟩ := looks_added evolution pid progress n
  rw [events]
  exact beforeEachSignal_append looked

theorem Signalled.looks {progress : Progress} (signalled : Signalled progress.events) (n : Nat) :
    Signalled (looks evolution pid progress n).events := by
  obtain ⟨added, events, looked⟩ := looks_added evolution pid progress n
  rw [events]
  exact signalled.append looked

/-- The wait for an exit and the last look. -/
theorem safe_waitForExit (progress : Progress) (started : Nat) (escalated : Bool)
    (deadline : Int) (signalled : Signalled progress.events) :
    Safe pid startTime true (fun ended : StopEnd => ended.stopped)
        ((waitForExit evolution pid deadline >>= fun _ =>
          confirmExit evolution pid started escalated >>= settle kind pid groupId).runOn
            progress) ↔
      BeforeEachSignal (CheckedFor pid startTime) progress.events ∧
        ∀ n, PollsFor evolution pid deadline progress.calls progress.now n →
          FreeOrRunning evolution pid startTime (progress.calls + n + 1) := by
  obtain ⟨n, polls, run⟩ := runOn_waitForExit evolution pid deadline progress
  rw [runOn_bind, run, polls.forall_iff]
  refine (safe_confirmExit _ (signalled.looks n) started escalated).trans ?_
  rw [beforeEachSignal_looks, looks_calls]

/-- A look that found the process, then SIGKILL and the wait for what it does. -/
theorem safe_killIfAlive (progress : Progress) (started : Nat) {process : Process}
    (signalled : Signalled progress.events)
    (found : (evolution progress.calls).process? pid = some process) :
    Safe pid startTime true (fun ended : StopEnd => ended.stopped)
        (((do
          let escalated ← killIfAlive evolution pid groupId
          confirmExit evolution pid started escalated) >>= settle kind pid groupId).runOn
            progress) ↔
      BeforeEachSignal (CheckedFor pid startTime) progress.events ∧
        CheckedFor pid startTime groupId (.probed (some process) :: progress.events) ∧
          KillConfirms evolution pid startTime groupId (progress.calls + 1)
            (progress.now + (evolution progress.calls).elapsed) := by
  have watched := signalled.probed (some process)
  have waited : ∀ q : Progress,
      ((do
          let now ← dateNow
          waitForExit evolution pid (now + killConfirmGraceMs)
          pure true) >>= fun escalated =>
        confirmExit evolution pid started escalated >>= settle kind pid groupId).runOn q =
      (waitForExit evolution pid (q.now + killConfirmGraceMs) >>= fun _ =>
        confirmExit evolution pid started true >>= settle kind pid groupId).runOn q := by
    intro q
    rw [bind_assoc, runOn_bind, runOn_dateNow]
    simp only [bind_assoc, pure_bind]
  have checked : ∀ answer, BeforeEachSignal (CheckedFor pid startTime)
      (.signalled groupId .sigkill answer :: .probed (some process) :: progress.events) ↔
        BeforeEachSignal (CheckedFor pid startTime) progress.events ∧
          CheckedFor pid startTime groupId (.probed (some process) :: progress.events) :=
    fun _ => and_comm
  rw [bind_assoc, killIfAlive, bind_assoc, runOn_bind, runOn_processIsAlive]
  simp only [found, Option.isSome_some, if_true]
  rw [bind_assoc, runOn_bind, runOn_signal, KillConfirms]
  simp only [Progress.call_calls]
  cases answer : (evolution (progress.calls + 1)).kill pid groupId with
  | eperm =>
      simp only [if_true, Nat.add_sub_cancel]
      rw [freeOrRunning_of_some found]
      refine (safe_unconfirmed (watched.again .sigkill .eperm) (signalled.lastLook _)
        (by simp)).trans ?_
      rw [checked, and_assoc]
  | delivered =>
      simp only [reduceCtorEq, if_false]
      rw [waited]
      refine (safe_waitForExit ((progress.call evolution _).call evolution _) started true _
        (watched.again .sigkill .delivered)).trans ?_
      rw [← and_assoc, ← checked .delivered]
      rfl
  | esrch =>
      simp only [reduceCtorEq, if_false]
      rw [waited]
      refine (safe_waitForExit ((progress.call evolution _).call evolution _) started true _
        (watched.again .sigkill .esrch)).trans ?_
      rw [← and_assoc, ← checked .esrch]
      rfl

/-- A check is still fresh after a poll exactly when the poll did not sleep. -/
theorem checkedFor_looks {progress : Progress} (found : Option Process) (n : Nat)
    (fresh : CheckedFor pid startTime groupId progress.events) :
    CheckedFor pid startTime groupId
      (.probed found :: (looks evolution pid progress n).events) ↔ n = 0 := by
  obtain ⟨polled, events, -, none, unread⟩ := looks_events evolution pid progress n
  rw [events]
  constructor
  · rintro ⟨stat, member, -⟩
    by_contra slept
    exact unread slept _ (by simpa [sinceSleep] using member)
  · intro zero
    obtain ⟨stat, member, checked⟩ := fresh
    rw [none zero]
    exact ⟨stat, by simpa [sinceSleep] using member, checked⟩

/-- The escalation is safe where the signals before it were and it escalates safely. -/
theorem safe_escalate {progress : Progress} (killAfterMs : Int)
    (signalled : Signalled progress.events)
    (fresh : BeforeEachSignal (CheckedFor pid startTime) progress.events →
      CheckedFor pid startTime groupId progress.events) :
    Safe pid startTime true (fun ended : StopEnd => ended.stopped)
        ((escalate evolution pid groupId killAfterMs >>= settle kind pid groupId).runOn progress) ↔
      BeforeEachSignal (CheckedFor pid startTime) progress.events ∧
        EscalatesSafely evolution pid startTime groupId killAfterMs progress.calls
          progress.now := by
  obtain ⟨n, polls, run⟩ := runOn_waitForExit evolution pid
    (progress.now + killAfterMs) progress
  rw [EscalatesSafely, polls.forall_iff]
  rw [escalate, bind_assoc, runOn_bind, runOn_dateNow]
  dsimp only
  rw [bind_assoc, runOn_bind, run]
  dsimp only
  cases found : (evolution (progress.calls + n + 1)).process? pid with
  | none =>
      rw [if_pos rfl, killIfAlive, bind_assoc, bind_assoc, runOn_bind, runOn_processIsAlive]
      simp only [looks_calls, found, Option.isSome_none, Bool.false_eq_true, if_false, pure_bind]
      refine (safe_confirmExit ((looks evolution pid progress n).call evolution (.probed none))
        ((signalled.looks n).probed none) progress.now false).trans ?_
      rw [Progress.call_calls, looks_calls]
      exact and_congr_left' (beforeEachSignal_looks progress n)
  | some process =>
      rw [if_neg (by simp)]
      refine (safe_killIfAlive (looks evolution pid progress n) progress.now (signalled.looks n)
        (by rwa [looks_calls])).trans ?_
      rw [beforeEachSignal_looks, looks_calls, looks_now]
      refine and_congr_right fun checked => ?_
      rw [checkedFor_looks _ _ (fresh checked)]

end Escalation

/-! ## The first signal -/

section FirstSignal

variable {startTime : String} {groupId : Option Nat} {requesterPid : Nat} {options : StopOptions}
  {kind : RecordKind}

/-- The signals after a verification that only looked. -/
theorem safe_signalVerified {progress : Progress}
    (looked : ∀ event ∈ progress.events, event.isLook) :
    Safe pid startTime options.kill (fun ended : StopEnd => ended.stopped)
        ((signalVerified evolution requesterPid options kind pid groupId).runOn progress) ↔
      CheckedFor pid startTime groupId progress.events ∧
        (evolution progress.calls).kill pid groupId ≠ .eperm ∧
          (options.kill → (evolution progress.calls).kill pid groupId = .delivered →
            EscalatesSafely evolution pid startTime groupId options.killAfterMs
              (progress.calls + 1) (progress.now + (evolution progress.calls).elapsed)) := by
  have fresh : ∀ request, CheckedFor pid startTime groupId (.requested request :: progress.events) ↔
      CheckedFor pid startTime groupId progress.events := fun request => by
    simp [CheckedFor, sinceSleep]
  have checked : ∀ request answer, BeforeEachSignal (CheckedFor pid startTime)
      (.signalled groupId .sigterm answer :: .requested request :: progress.events) ↔
        CheckedFor pid startTime groupId progress.events := fun request answer => by
    simp [BeforeEachSignal, fresh, beforeEachSignal_of_looks looked]
  have unsignalled : ∀ P, BeforeEachSignal P progress.events :=
    fun _ => beforeEachSignal_of_looks looked
  have quiet : ∀ request answer, answer ≠ .delivered → NothingDelivered
      (.signalled groupId .sigterm answer :: .requested request :: progress.events) :=
    fun request answer other groupId value member => by
      simp only [List.mem_cons, Event.signalled.injEq, reduceCtorEq, false_or] at member
      rcases member with ⟨-, -, rfl⟩ | member
      · exact other rfl
      · exact nothingDelivered_of_looks looked groupId value member
  rw [signalVerified, runOn_bind]
  change Safe _ _ _ _ (runOn _ (progress.note _)) ↔ _
  rw [runOn_bind, runOn_signal]
  simp only [Progress.note_calls]
  cases answer : (evolution progress.calls).kill pid groupId with
  | eperm =>
      refine iff_of_false (fun safe => ?_) (by simp)
      have removed := safe.removed (.inl (quiet _ .eperm (by simp)))
      cases removed
  | esrch =>
      simp only [ne_eq, reduceCtorEq, not_false_eq_true, false_implies, implies_true, and_true]
      refine Iff.trans ⟨fun safe => safe.checked, fun signals => ⟨signals, ?_, fun _ => rfl, ?_⟩⟩
        (checked _ .esrch)
      · exact ⟨rfl, unsignalled _⟩
      · intro _ found last
        change lastLook progress.events = some found at last
        rw [lastLook_of_looks looked] at last
        cases last
  | delivered =>
      simp only [ne_eq, reduceCtorEq, not_false_eq_true, true_and, true_implies]
      have delivered : ∀ request, ¬ NothingDelivered (.signalled groupId .sigterm .delivered ::
          .requested request :: progress.events) := fun request nothing =>
        nothing groupId .sigterm List.mem_cons_self
      cases kill : options.kill with
      | false =>
          simp only [Bool.false_eq_true, if_false, false_implies, and_true]
          refine Iff.trans ⟨fun safe => safe.checked, fun signals =>
            ⟨signals, ?_, ?_, fun asked => by cases asked⟩⟩ (checked _ .delivered)
          · exact ⟨rfl, unsignalled _⟩
          · rintro (nothing | free)
            · exact absurd nothing (delivered _)
            · change lastLook progress.events = some none at free
              rw [lastLook_of_looks looked] at free
              cases free
      | true =>
          simp only [if_true, true_implies]
          refine (safe_escalate options.killAfterMs ⟨?_, rfl, delivered _, rfl⟩ ?_).trans ?_
          · exact ⟨rfl, unsignalled _⟩
          · intro signals
            obtain ⟨stat, member, matched⟩ := (checked _ .delivered).mp signals
            exact ⟨stat, by simpa [sinceSleep] using member, matched⟩
          · exact and_congr_left' (checked _ .delivered)

end FirstSignal

/-! ## The whole stop -/

section Stop

variable {identity : RunProcessIdentity} {startTime : String} {requesterPid now : Nat}
  {options : StopOptions} {record : StoppableRunRecord}

/-- The group that is signalled: one that the run leads, or none. -/
def AskedGroup (evolution : Evolution) (identity : RunProcessIdentity) (groupId : Option Nat) :
    Prop :=
  ∀ group ∈ groupId, group = identity.pid ∧ LeadsGroup evolution identity 1

theorem readsMade_looks : ∀ event ∈ readsMade evolution identity, event.isLook := by
  cases birth : identity.procfsCtimeNs <;> simp [readsMade, birth, Event.isLook]

/-- The start time was compared if procfs could be read when it was looked at. -/
theorem checkedFor_readsMade (recorded : identity.startTime = some startTime)
    (same : startTimeMatches identity (statAt evolution identity.pid 1) ≠ some false)
    {groupId : Option Nat} (asked : AskedGroup evolution identity groupId) :
    CheckedFor identity.pid startTime groupId (readsMade evolution identity) ↔
      (statAt evolution identity.pid 1).isSome := by
  have awake : sinceSleep (readsMade evolution identity) = readsMade evolution identity := by
    cases birth : identity.procfsCtimeNs <;> simp [readsMade, birth, sinceSleep]
  have member : ∀ stat, Event.stat (some stat) ∈ readsMade evolution identity ↔
      statAt evolution identity.pid 1 = some stat := fun stat => by
    cases birth : identity.procfsCtimeNs <;> simp [readsMade, birth, eq_comm]
  simp only [CheckedFor, awake, member]
  constructor
  · rintro ⟨stat, found, -⟩
    simp [found]
  · intro visible
    obtain ⟨stat, found⟩ := Option.isSome_iff_exists.mp visible
    refine ⟨stat, found, (startTimeMatches_some recorded).mp same stat found, ?_⟩
    intro group isAsked
    obtain ⟨own, leads⟩ := asked group isAsked
    have live := leads.2
    rw [found] at live
    exact ⟨own, (Option.some.inj live).trans own.symm⟩

theorem provenGroup_of_leads {argv : List String} (leads : LeadsGroup evolution identity 1) :
    provenGroup identity (liveAt evolution identity argv) = some identity.pid := by
  simp [provenGroup, liveAt, leads.1, leads.2]

theorem provenGroup_of_not_leads {argv : List String}
    (unproven : ¬ LeadsGroup evolution identity 1) :
    provenGroup identity (liveAt evolution identity argv) = none := by
  rw [provenGroup]
  cases recorded : identity.groupId with
  | none => rfl
  | some group =>
      cases live : (liveAt evolution identity argv).groupId with
      | none => rfl
      | some found =>
          apply if_neg
          rintro ⟨rfl, rfl⟩
          exact unproven ⟨recorded, live⟩

/-- After the checks passed the signals are safe exactly where nothing disturbs them. -/
theorem safe_signals (recorded : identity.startTime = some startTime)
    (identified : Identified evolution identity options.targetDir record.cmdlineWitness 0)
    {groupId : Option Nat} (asked : AskedGroup evolution identity groupId) :
    Safe identity.pid startTime options.kill (fun ended : StopEnd => ended.stopped)
        ((signalVerified evolution requesterPid options record.kind identity.pid groupId).runOn
          ⟨argvCall identity 0 + 1, clockAfter evolution now (argvCall identity 0 + 1),
            readsMade evolution identity⟩) ↔
      Undisturbed evolution identity startTime options groupId now := by
  rw [safe_signalVerified readsMade_looks, checkedFor_readsMade recorded
    identified.sameStart asked]
  exact ⟨fun ⟨visible, permitted, escalation⟩ => ⟨visible, permitted, escalation⟩,
    fun clean => ⟨clean.visible, clean.permitted, clean.escalation⟩⟩

variable (identity record) in
/-- The steps on an identified record are safe exactly under the evolutions that keep them so. -/
theorem safe_stopIdentified (recorded : identity.startTime = some startTime) :
    Safe identity.pid startTime options.kill (fun ended : StopEnd => ended.stopped)
        ((stopIdentified evolution requesterPid options record identity).runOn (.start now)) ↔
      KeepsSafe evolution identity startTime record.cmdlineWitness options now := by
  rw [stopIdentified, runOn_bind]
  by_cases identified : Identified evolution identity options.targetDir record.cmdlineWitness 0
  · obtain ⟨argv, run⟩ := runOn_verifyStopTarget identified now
    rw [run]
    dsimp only
    cases group : options.group with
    | false =>
        have asked : AskedGroup evolution identity none := fun _ member => by cases member
        simp only [Bool.false_eq_true, if_false]
        rw [safe_signals recorded identified asked]
        simp [KeepsSafe, identified, group, groupAsked]
    | true =>
        simp only [if_true]
        by_cases leads : LeadsGroup evolution identity 1
        · have asked : AskedGroup evolution identity (some identity.pid) :=
            fun _ member => ⟨(Option.some.inj member).symm, leads⟩
          rw [provenGroup_of_leads leads]
          dsimp only
          rw [safe_signals recorded identified asked]
          simp [KeepsSafe, identified, group, groupAsked, leads]
        · rw [provenGroup_of_not_leads leads]
          refine iff_of_true (safe_of_looks readsMade_looks) fun _ proven => ?_
          exact absurd (proven group) leads
  · refine iff_of_true ?_ fun holds => absurd holds identified
    have looked := verifyStopTarget_looks evolution identity options.targetDir
      record.cmdlineWitness (.start now)
      (by simp [Progress.start])
    cases result : ((verifyStopTarget evolution identity options.targetDir
        record.cmdlineWitness).runOn (.start now)).1 with
    | error e => exact safe_of_looks looked
    | ok verification =>
        cases verification with
        | ok live => exact absurd (identified_of_ok result) identified
        | failed reason checked =>
            apply safe_of_looks
            dsimp only
            split_ifs <;> exact looked

end Stop

/-! ## Both fronts -/

/-- A front that reports what the steps ended with is as safe as the steps. -/
theorem safe_report {α : Type} {pid : Nat} {startTime : String} {kill : Bool} {now : Nat}
    {steps : Stopping StopEnd} {report : StopEnd → α} {stopped : α → Bool}
    (reports : ∀ ended, stopped (report ended) = ended.stopped) :
    Safe pid startTime kill (fun outcome => stopped outcome)
        ((do let ended ← steps; return report ended).runOn (.start now)) ↔
      Safe pid startTime kill (fun ended : StopEnd => ended.stopped) (steps.runOn (.start now)) := by
  rw [runOn_bind]
  cases result : (steps.runOn (.start now)).1 with
  | error e =>
      refine ⟨fun safe => ⟨safe.checked, safe.witnessed, safe.removed, fun asked found last absent => ?_⟩,
        fun safe => ⟨safe.checked, safe.witnessed, safe.removed, fun asked found last absent => ?_⟩⟩
      · obtain ⟨_, ok, _⟩ := safe.reported asked found last absent
        cases ok
      · obtain ⟨_, ok, _⟩ := safe.reported asked found last absent
        rw [result] at ok
        cases ok
  | ok ended =>
      refine ⟨fun safe => ⟨safe.checked, safe.witnessed, safe.removed, fun asked found last absent => ?_⟩,
        fun safe => ⟨safe.checked, safe.witnessed, safe.removed, fun asked found last absent => ?_⟩⟩
      · obtain ⟨_, ok, isStopped⟩ := safe.reported asked found last absent
        cases ok
        exact ⟨ended, result, (reports ended).symm.trans isStopped⟩
      · obtain ⟨_, ok, isStopped⟩ := safe.reported asked found last absent
        rw [result] at ok
        cases ok
        exact ⟨report ended, rfl, (reports ended).trans isStopped⟩

theorem isStopped_stopRunOutcome (options : StopOptions) (ended : StopEnd) :
    (stopRunOutcome options ended).isStopped = ended.stopped := by
  cases ended with
  | settled kind pid groupId escalation =>
      cases exit : escalation.exitAfterMs <;>
        simp [stopRunOutcome, exit, StopRunOutcome.isStopped, StopEnd.stopped]
  | _ => rfl

theorem isStopped_commandExit (options : StopOptions) (ended : StopEnd) :
    (commandExit options ended).isStopped = ended.stopped := by
  cases ended with
  | settled kind pid groupId escalation =>
      cases exit : escalation.exitAfterMs <;>
        simp [commandExit, exit, CommandExit.isStopped, StopEnd.stopped]
  | _ => rfl

/-- A record of a run that recorded its start time. -/
def StoppableRunRecord.startedAt (record : StoppableRunRecord) (identity : RunProcessIdentity)
    (startTime : String) : StoppableRunRecord :=
  { record with identity := some { identity with startTime := some startTime } }

/-- Both fronts stop a run safely exactly under the evolutions that keep the steps safe. -/
theorem stops_safely_iff (evolution : Evolution) (requesterPid now : Nat)
    (record : StoppableRunRecord) (identity : RunProcessIdentity) (startTime : String) :
    (∀ input : StopRunInput,
      Safe identity.pid startTime input.options.kill (fun outcome => outcome.isStopped)
        ((stopRun evolution requesterPid (.ok (some (record.startedAt identity startTime)))
          input).runOn (.start now)) ↔
      KeepsSafe evolution { identity with startTime := some startTime } startTime
        record.cmdlineWitness input.options now) ∧
    (∀ params : StopOptions,
      Safe identity.pid startTime params.kill (fun exit => exit.isStopped)
        ((runsStopCommand evolution requesterPid (.ok (some (record.startedAt identity startTime)))
          params).runOn (.start now)) ↔
      KeepsSafe evolution { identity with startTime := some startTime } startTime
        record.cmdlineWitness params now) :=
  ⟨fun input => (safe_report (isStopped_stopRunOutcome input.options)).trans
      (safe_stopIdentified { identity with startTime := some startTime }
        (record.startedAt identity startTime) rfl),
    fun params => (safe_report (isStopped_commandExit params)).trans
      (safe_stopIdentified { identity with startTime := some startTime }
        (record.startedAt identity startTime) rfl)⟩

section Reused

def victim : Process :=
  ⟨42, 42, "100", "S", none, some ["worker", "/repo", "--id", "r1"], true, true⟩

def stranger : Process := ⟨42, 42, "900", "S", none, some ["editor"], true, true⟩

/-- The run ends while its stop sleeps, and another process takes its pid. -/
def reusedPid : Evolution := fun call =>
  ⟨if call ≤ 4 then [victim] else if call ≤ 7 then [stranger] else [], 0⟩

def reusedRecord : StoppableRunRecord :=
  ⟨.background, "r1.json", some "running", none, some ("--id", "r1")⟩

def reusedIdentity : RunProcessIdentity := ⟨42, none, none, some 42⟩

def reusedInput : StopRunInput := ⟨"r1", "/repo", some true, none, some 50⟩

theorem events_reusedPid :
    ((stopSteps reusedPid 7 reusedInput.options
      (.ok (some (reusedRecord.startedAt reusedIdentity "100")))).runOn (.start 0)).2.events =
      [.consumed, .probed none, .probed none,
        .signalled none .sigkill .delivered, .probed (some stranger), .probed (some stranger),
        .slept, .probed (some victim), .signalled none .sigterm .delivered,
        .requested ⟨"r1", 0, 7, .sigterm⟩, .argv victim.argv, .stat victim.stat?,
        .probed (some victim)] := by
  decide

/-- SIGKILL reaches the process that took the pid, unchecked since the sleep. -/
theorem reused_pid_is_killed :
    ¬ Safe 42 "100" true (fun outcome => outcome.isStopped)
        ((stopRun reusedPid 7 (.ok (some (reusedRecord.startedAt reusedIdentity "100")))
          reusedInput).runOn (.start 0)) ∧
      ¬ Safe 42 "100" true (fun exit => exit.isStopped)
        ((runsStopCommand reusedPid 7 (.ok (some (reusedRecord.startedAt reusedIdentity "100")))
          reusedInput.options).runOn (.start 0)) := by
  have unchecked : ¬ Safe 42 "100" true (fun ended : StopEnd => ended.stopped)
      ((stopSteps reusedPid 7 reusedInput.options
        (.ok (some (reusedRecord.startedAt reusedIdentity "100")))).runOn (.start 0)) := by
    intro safe
    have checked := safe.checked
    rw [events_reusedPid] at checked
    simp [BeforeEachSignal, CheckedFor, sinceSleep] at checked
  exact ⟨fun safe => unchecked ((safe_report (isStopped_stopRunOutcome _)).mp safe),
    fun safe => unchecked ((safe_report (isStopped_commandExit _)).mp safe)⟩

end Reused

end AdCoder.RunStop
