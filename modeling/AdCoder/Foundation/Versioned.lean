import Mathlib.Logic.Function.Basic
import Mathlib.Tactic.SplitIfs

/-!
# Versioned values under compare-and-swap

A write names the version it replaces and raises it by one, so equal versions
of one key hold equal values for as long as the store lives.
-/

namespace AdCoder.Foundation

variable {κ : Type*} {α : Type}

/-- A value with the version that a write must name. -/
structure VersionedState (α : Type) where
  version : Nat
  value : α
  deriving DecidableEq

/-- What is stored under each key. -/
abbrev VersionedFiles (κ : Type*) (α : Type) := κ → Option (VersionedState α)

namespace VersionedFiles

/-- The version of a key, zero before its first write. -/
def version (files : VersionedFiles κ α) (key : κ) : Nat :=
  match files key with
  | none => 0
  | some held => held.version

theorem version_eq {files : VersionedFiles κ α} {key : κ} {held : VersionedState α}
    (h : files key = some held) : files.version key = held.version := by
  simp [version, h]

/-- Store the value if the key is still at the expected version. -/
def swap [DecidableEq κ] (files : VersionedFiles κ α) (key : κ) (expected : Nat) (value : α) :
    Option (VersionedFiles κ α) :=
  if files.version key = expected then
    some (Function.update files key (some ⟨expected + 1, value⟩))
  else none

/-- The key still holds what was read from it, or a later version. -/
def Stands (files : VersionedFiles κ α) (key : κ) (held : VersionedState α) : Prop :=
  ∃ now, files key = some now ∧ held.version ≤ now.version ∧
    (now.version = held.version → now = held)

/-- Every key of the earlier store still stands in the later one. -/
def Grows (earlier later : VersionedFiles κ α) : Prop :=
  ∀ key held, earlier key = some held → Stands later key held

theorem Stands.of_held {files : VersionedFiles κ α} {key : κ} {held : VersionedState α}
    (h : files key = some held) : Stands files key held :=
  ⟨held, h, Nat.le_refl _, fun _ => rfl⟩

/-- What was read is still held if the version is. -/
theorem Stands.held {files : VersionedFiles κ α} {key : κ} {held : VersionedState α}
    (h : Stands files key held) (version : files.version key = held.version) :
    files key = some held := by
  obtain ⟨now, hnow, _, same⟩ := h
  rw [hnow, same]
  rw [← version, version_eq hnow]

theorem Stands.grows {earlier later : VersionedFiles κ α} {key : κ} {held : VersionedState α}
    (h : Stands earlier key held) (grows : Grows earlier later) : Stands later key held := by
  obtain ⟨now, hnow, le, same⟩ := h
  obtain ⟨last, hlast, le', same'⟩ := grows key now hnow
  refine ⟨last, hlast, Nat.le_trans le le', ?_⟩
  intro heq
  have hmid : last.version = now.version := Nat.le_antisymm (heq ▸ le) le'
  rw [same' hmid]
  exact same (hmid ▸ heq)

theorem Grows.refl (files : VersionedFiles κ α) : Grows files files :=
  fun _ _ h => .of_held h

theorem Grows.trans {first second third : VersionedFiles κ α} (h : Grows first second)
    (h' : Grows second third) : Grows first third :=
  fun key held hheld => (h key held hheld).grows h'

section Swap

variable [DecidableEq κ] {files next : VersionedFiles κ α} {key : κ} {expected : Nat} {value : α}

theorem swap_eq_some (h : files.swap key expected value = some next) :
    files.version key = expected ∧
      next = Function.update files key (some ⟨expected + 1, value⟩) := by
  unfold swap at h
  split_ifs at h with current
  exact ⟨current, (Option.some.inj h).symm⟩

theorem swap_grows (h : files.swap key expected value = some next) : Grows files next := by
  obtain ⟨current, rfl⟩ := swap_eq_some h
  intro other held hheld
  by_cases heq : other = key
  · subst heq
    have hversion : held.version = expected := (version_eq hheld).symm.trans current
    refine ⟨⟨expected + 1, value⟩, by simp, by simp [hversion], ?_⟩
    intro same
    simp [hversion] at same
  · exact ⟨held, by simp [Function.update_of_ne heq, hheld], Nat.le_refl _, fun _ => rfl⟩

end Swap

end VersionedFiles

end AdCoder.Foundation
