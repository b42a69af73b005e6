import Mathlib.Algebra.Order.Group.Nat
import Mathlib.Data.List.Basic

/-!
# Minimal differences of lists

A script turns one list into another by keeping, removing and adding elements
in order. The difference of two lists is the least number of removals and
additions of a script between them.
-/

namespace AdCoder.Foundation

variable {α : Type*}

/-- A script from one list to another, with its removals and additions counted. -/
inductive Script : List α → List α → Nat → Prop
  | nil : Script [] [] 0
  | keep (x : α) {xs ys : List α} {n : Nat} (rest : Script xs ys n) : Script (x :: xs) (x :: ys) n
  | remove (x : α) {xs ys : List α} {n : Nat} (rest : Script xs ys n) : Script (x :: xs) ys (n + 1)
  | add (y : α) {xs ys : List α} {n : Nat} (rest : Script xs ys n) : Script xs (y :: ys) (n + 1)

namespace Script

variable {xs ys zs xs' ys' : List α} {m n : Nat}

theorem refl (xs : List α) : Script xs xs 0 := by
  induction xs with
  | nil => exact .nil
  | cons x xs ih => exact ih.keep x

theorem removeAll (xs : List α) : Script xs [] xs.length := by
  induction xs with
  | nil => exact .nil
  | cons x xs ih => exact ih.remove x

theorem addAll (ys : List α) : Script [] ys ys.length := by
  induction ys with
  | nil => exact .nil
  | cons y ys ih => exact ih.add y

theorem append (h : Script xs ys m) (h' : Script xs' ys' n) :
    Script (xs ++ xs') (ys ++ ys') (n + m) := by
  induction h with
  | nil => exact h'
  | keep x _ ih => exact ih.keep x
  | remove x _ ih => exact ih.remove x
  | add y _ ih => exact ih.add y

theorem reverse (h : Script xs ys n) : Script xs.reverse ys.reverse n := by
  induction h with
  | nil => exact .nil
  | keep x _ ih => simpa using ih.append (refl [x])
  | remove x _ ih => simpa [Nat.add_comm] using ih.append (removeAll [x])
  | add y _ ih => simpa [Nat.add_comm] using ih.append (addAll [y])

/-- A kept element of the middle list is kept, removed or added by the two scripts together. -/
theorem trans (h : Script xs ys m) (h' : Script ys zs n) : ∃ k ≤ m + n, Script xs zs k := by
  induction h generalizing zs n with
  | nil => exact ⟨n, by omega, h'⟩
  | remove x _ ih =>
      obtain ⟨k, small, rest⟩ := ih h'
      exact ⟨k + 1, by omega, rest.remove x⟩
  | @keep x xs ys m first ih =>
      generalize middle : x :: ys = ws at h'
      induction h' with
      | nil => cases middle
      | keep y rest _ =>
          cases middle
          obtain ⟨k, small, rest⟩ := ih rest
          exact ⟨k, small, rest.keep x⟩
      | remove y rest _ =>
          cases middle
          obtain ⟨k, small, rest⟩ := ih rest
          exact ⟨k + 1, by omega, rest.remove x⟩
      | add z _ later =>
          obtain ⟨k, small, rest⟩ := later middle
          exact ⟨k + 1, by omega, rest.add z⟩
  | @add y xs ys m first ih =>
      generalize middle : y :: ys = ws at h'
      induction h' with
      | nil => cases middle
      | keep z rest _ =>
          cases middle
          obtain ⟨k, small, rest⟩ := ih rest
          exact ⟨k + 1, by omega, rest.add y⟩
      | remove z rest _ =>
          cases middle
          obtain ⟨k, small, rest⟩ := ih rest
          exact ⟨k, by omega, rest⟩
      | add z _ later =>
          obtain ⟨k, small, rest⟩ := later middle
          exact ⟨k + 1, by omega, rest.add z⟩

/-- What both lists begin with need not be touched. -/
theorem cancel {x : α} (h : Script (x :: xs) (x :: ys) n) : ∃ k ≤ n, Script xs ys k := by
  cases h with
  | keep _ rest => exact ⟨n, le_rfl, rest⟩
  | @remove _ _ _ m rest =>
      obtain ⟨k, small, rest⟩ := rest.trans ((refl ys).remove x)
      exact ⟨k, by omega, rest⟩
  | @add _ _ _ m rest =>
      obtain ⟨k, small, rest⟩ := ((refl xs).add x).trans rest
      exact ⟨k, by omega, rest⟩

theorem cancelAll (common : List α) (h : Script (common ++ xs) (common ++ ys) n) :
    ∃ k ≤ n, Script xs ys k := by
  induction common generalizing n with
  | nil => exact ⟨n, le_rfl, h⟩
  | cons x common ih =>
      obtain ⟨k, small, rest⟩ := h.cancel
      obtain ⟨j, smaller, rest⟩ := ih rest
      exact ⟨j, by omega, rest⟩

/-- Lists without a common element keep nothing. -/
theorem eq_of_disjoint (h : Script xs ys n) (apart : ∀ x ∈ xs, x ∉ ys) :
    n = xs.length + ys.length := by
  induction h with
  | nil => rfl
  | keep x _ _ => exact absurd List.mem_cons_self (apart x List.mem_cons_self)
  | remove x _ ih =>
      have rest := ih fun other member => apart other (.tail x member)
      simp only [List.length_cons]
      omega
  | add y _ ih =>
      have rest := ih fun other member => fun found => apart other member (.tail y found)
      simp only [List.length_cons]
      omega

end Script

variable [DecidableEq α]

/-- The difference of a list that begins with the element, given that of its rest. -/
def diffRow (x : α) (rest : List α → Nat) : List α → Nat
  | [] => rest [] + 1
  | y :: ys =>
      let changed := min (rest (y :: ys)) (diffRow x rest ys) + 1
      if x = y then min (rest ys) changed else changed

/-- The least number of removals and additions between two lists. -/
def diff : List α → List α → Nat
  | [] => List.length
  | x :: xs => diffRow x (diff xs)

section Diff

variable {xs ys zs : List α}

theorem diff_cons_left (x : α) : diff (x :: xs) ys ≤ diff xs ys + 1 := by
  cases ys with
  | nil => exact le_rfl
  | cons y ys =>
      simp only [diff, diffRow]
      split_ifs <;> omega

theorem diff_cons_right (y : α) : diff xs (y :: ys) ≤ diff xs ys + 1 := by
  cases xs with
  | nil => simp [diff]
  | cons x xs =>
      simp only [diff, diffRow]
      split_ifs <;> omega

theorem diff_cons_cons (x : α) : diff (x :: xs) (x :: ys) ≤ diff xs ys := by
  simp only [diff, diffRow, if_true]
  omega

theorem script_diff (xs ys : List α) : Script xs ys (diff xs ys) := by
  induction xs generalizing ys with
  | nil => exact .addAll ys
  | cons x xs ih =>
      induction ys with
      | nil => exact (ih []).remove x
      | cons y ys later =>
          have changed : Script (x :: xs) (y :: ys)
              (min (diff xs (y :: ys)) (diffRow x (diff xs) ys) + 1) := by
            rcases min_choice (diff xs (y :: ys)) (diffRow x (diff xs) ys) with least | least
            · rw [least]
              exact (ih (y :: ys)).remove x
            · rw [least]
              exact later.add y
          simp only [diff, diffRow]
          split_ifs with same
          · subst same
            rcases min_choice (diff xs ys)
              (min (diff xs (x :: ys)) (diffRow x (diff xs) ys) + 1) with least | least
            · rw [least]
              exact (ih ys).keep x
            · rw [least]
              exact changed
          · exact changed

theorem diff_le_of_script {n : Nat} (h : Script xs ys n) : diff xs ys ≤ n := by
  induction h with
  | nil => exact le_rfl
  | keep x _ ih => exact (diff_cons_cons x).trans ih
  | remove x _ ih => exact (diff_cons_left x).trans (by omega)
  | add y _ ih => exact (diff_cons_right y).trans (by omega)

theorem diff_le_length : diff xs ys ≤ xs.length + ys.length := by
  have all := (Script.removeAll xs).append (Script.addAll ys)
  have bound := diff_le_of_script all
  simp only [List.append_nil, List.nil_append] at bound
  omega

@[simp] theorem diff_self (xs : List α) : diff xs xs = 0 :=
  Nat.le_zero.mp (diff_le_of_script (.refl xs))

theorem diff_triangle : diff xs zs ≤ diff xs ys + diff ys zs := by
  obtain ⟨k, small, script⟩ := (script_diff xs ys).trans (script_diff ys zs)
  exact (diff_le_of_script script).trans small

@[simp] theorem diff_append_left (common : List α) :
    diff (common ++ xs) (common ++ ys) = diff xs ys := by
  refine le_antisymm ?_ ?_
  · exact diff_le_of_script (by simpa using (Script.refl common).append (script_diff xs ys))
  · obtain ⟨k, small, script⟩ := (script_diff (common ++ xs) (common ++ ys)).cancelAll common
    exact (diff_le_of_script script).trans small

theorem diff_reverse_le : diff xs.reverse ys.reverse ≤ diff xs ys :=
  diff_le_of_script (script_diff xs ys).reverse

theorem diff_reverse : diff xs.reverse ys.reverse = diff xs ys :=
  le_antisymm diff_reverse_le (by simpa using @diff_reverse_le _ _ xs.reverse ys.reverse)

@[simp] theorem diff_append_right (common : List α) :
    diff (xs ++ common) (ys ++ common) = diff xs ys := by
  rw [← diff_reverse, List.reverse_append, List.reverse_append, diff_append_left, diff_reverse]

theorem diff_of_disjoint (apart : ∀ x ∈ xs, x ∉ ys) : diff xs ys = xs.length + ys.length :=
  (script_diff xs ys).eq_of_disjoint apart

/-- A common element is kept. -/
theorem diff_of_common {x : α} (left : x ∈ xs) (right : x ∈ ys) :
    diff xs ys + 2 ≤ xs.length + ys.length := by
  obtain ⟨before, after, rfl⟩ := List.append_of_mem left
  obtain ⟨before', after', rfl⟩ := List.append_of_mem right
  have around : diff (before ++ x :: after) (before' ++ x :: after') ≤
      diff before before' + diff after after' := by
    refine diff_le_of_script ?_
    have script := (script_diff before before').append ((script_diff after after').keep x)
    rwa [Nat.add_comm]
  have first : diff before before' ≤ before.length + before'.length := diff_le_length
  have last : diff after after' ≤ after.length + after'.length := diff_le_length
  simp only [List.length_append, List.length_cons]
  omega

end Diff

end AdCoder.Foundation
