import AdCoder.BackgroundRuns.Record

/-!
# Wake windows

Turn-initiating events of one kind are coalesced into a window while nobody
handled it. Two projections of the windows are united by the window's kind and
beginning, and a handled observation wins.
-/

namespace AdCoder.BackgroundRuns

open Foundation

/-- The identity of a window. -/
def WakeEntry.key (w : WakeEntry) : WakeKind × Nat := (w.kind, w.firstAt)

/-! ## Coalescing -/

/-- Extend the last unhandled window of the kind, if there is one. -/
def extendLast (kind : WakeKind) (now : Nat) : List WakeEntry → Option (List WakeEntry)
  | [] => none
  | w :: rest =>
      match extendLast kind now rest with
      | some rest => some (w :: rest)
      | none =>
          if w.kind = kind ∧ w.handled = false then
            some ({ w with lastAt := now, count := w.count + 1 } :: rest)
          else none

/-- Leave out the first handled windows. -/
def dropHandled : Nat → List WakeEntry → List WakeEntry
  | 0, entries => entries
  | _, [] => []
  | n + 1, w :: rest => if w.handled then dropHandled n rest else w :: dropHandled (n + 1) rest

/-- A window that begins now. -/
def openWindow (kind : WakeKind) (now : Nat) : WakeEntry := ⟨kind, now, now, 1, false, none⟩

/-- Only handled windows are evicted, the oldest first, and only when they suffice. -/
def evictHandled (maxWakeEntriesPerRun : Nat) (entries : List WakeEntry) : List WakeEntry :=
  let excess := entries.length - maxWakeEntriesPerRun
  if excess ≤ entries.countP (·.handled) then dropHandled excess entries else entries

/-- `coalesceWake`, for a kind that wakes. -/
def coalesceWindow (maxWakeEntriesPerRun : Nat) (kind : WakeKind) (now : Nat)
    (entries : List WakeEntry) : List WakeEntry :=
  match extendLast kind now entries with
  | some entries => entries
  | none => evictHandled maxWakeEntriesPerRun (entries ++ [openWindow kind now])

/-! ## Union -/

/-- The larger of two times that may be missing. -/
def laterAt : Option Nat → Option Nat → Option Nat
  | none, b => b
  | a, none => a
  | some a, some b => some (max a b)

/-- One window from all observations of it. -/
def joinWindow (first : WakeEntry) (others : List WakeEntry) : WakeEntry where
  kind := first.kind
  firstAt := others.foldl (fun least w => min least w.firstAt) first.firstAt
  lastAt := others.foldl (fun most w => max most w.lastAt) first.lastAt
  count := others.foldl (fun most w => max most w.count) first.count
  handled := first.handled || others.any (·.handled)
  handledAt := others.foldl (fun most w => laterAt most w.handledAt) first.handledAt

/-- The observations of a window, joined. -/
def joinAt (windows : List WakeEntry) (key : WakeKind × Nat) : Option WakeEntry :=
  match windows.filter fun w => w.key == key with
  | [] => none
  | first :: others => some (joinWindow first others)

/-- The windows of both projections, in the order in which they are first seen. -/
def mergeWindows (a b : List WakeEntry) : List WakeEntry :=
  ((a ++ b).map WakeEntry.key).eraseDups.filterMap (joinAt (a ++ b))

def mergeWake : Option (List WakeEntry) → Option (List WakeEntry) → Option (List WakeEntry)
  | none, none => none
  | a, b => some (mergeWindows (a.getD []) (b.getD []))

end AdCoder.BackgroundRuns
