import Mathlib.Data.List.Basic

/-!
# Numbered sequences

Items with increasing numbers are read from a cursor on. What is read leaves
the items after the last one that was read.
-/

namespace AdCoder.Foundation

variable {α : Type*} {number : α → ℕ}

/-- The numbers increase. -/
def Ascending (number : α → ℕ) (items : List α) : Prop :=
  items.Pairwise fun a b => number a < number b

/-- The items with a number above the cursor. -/
def itemsAfter (number : α → ℕ) (cursor : ℕ) (items : List α) : List α :=
  items.filter fun item => cursor < number item

variable {items front rest : List α} {item last : α} {cursor : ℕ}

theorem mem_itemsAfter :
    item ∈ itemsAfter number cursor items ↔ item ∈ items ∧ cursor < number item := by
  rw [itemsAfter, List.mem_filter, decide_eq_true_iff]

theorem Ascending.itemsAfter (ascending : Ascending number items) (cursor : ℕ) :
    Ascending number (itemsAfter number cursor items) :=
  ascending.sublist List.filter_sublist

theorem itemsAfter_itemsAfter (le : cursor ≤ number last) :
    itemsAfter number (number last) (itemsAfter number cursor items) =
      itemsAfter number (number last) items := by
  rw [itemsAfter, itemsAfter, itemsAfter, List.filter_filter]
  refine List.filter_congr fun item _ => ?_
  rw [Bool.eq_iff_iff]
  simp only [decide_eq_true_eq, Bool.and_eq_true]
  omega

/-- After an item there are those behind it. -/
theorem itemsAfter_last (ascending : Ascending number (front ++ last :: rest)) :
    itemsAfter number (number last) (front ++ last :: rest) = rest := by
  obtain ⟨-, above, across⟩ := List.pairwise_append.mp ascending
  have old : front.filter (fun item => number last < number item) = [] := by
    rw [List.filter_eq_nil_iff]
    intro item mem
    have below := across item mem last List.mem_cons_self
    rw [decide_eq_true_iff]
    omega
  have new : rest.filter (fun item => number last < number item) = rest := by
    rw [List.filter_eq_self]
    intro item mem
    exact decide_eq_true ((List.pairwise_cons.mp above).1 item mem)
  rw [itemsAfter, List.filter_append, old, List.nil_append, List.filter_cons_of_neg (by simp), new]

/-- A page of the items after a cursor leaves the items after its last one. -/
theorem page_append_itemsAfter (ascending : Ascending number items) (cursor limit : ℕ) :
    (itemsAfter number cursor items).take limit ++
        itemsAfter number
          ((((itemsAfter number cursor items).take limit).getLast?.map number).getD cursor) items =
      itemsAfter number cursor items := by
  have split := List.take_append_drop limit (itemsAfter number cursor items)
  rcases List.eq_nil_or_concat' ((itemsAfter number cursor items).take limit) with
    empty | ⟨start, last, ends⟩
  · rw [empty]
    rfl
  · rw [ends] at split ⊢
    rw [List.append_assoc, List.singleton_append] at split
    have known : last ∈ itemsAfter number cursor items := by
      rw [← split]
      simp
    have above := (mem_itemsAfter.mp known).2
    have sorted : Ascending number
        (start ++ last :: (itemsAfter number cursor items).drop limit) := by
      rw [split]
      exact ascending.itemsAfter cursor
    have left := itemsAfter_last sorted
    rw [split, itemsAfter_itemsAfter (Nat.le_of_lt above)] at left
    rw [List.getLast?_append_of_ne_nil _ (List.cons_ne_nil _ _), List.getLast?_singleton,
      Option.map_some, Option.getD_some, left, List.append_assoc, List.singleton_append]
    exact split

end AdCoder.Foundation
