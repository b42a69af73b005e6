import Mathlib.Data.List.Basic
import Mathlib.Order.Lattice

/-!
# The first of the greatest

A scan that replaces what it holds by what is greater ends with the first of the greatest
items. Which one that is depends on the order of the items of one score only.
-/

namespace AdCoder.Foundation

variable {α κ : Type*} [LinearOrder κ] {score : α → κ} {items others : List α} {x w : α}

/-- One item of a scan. -/
def keepGreater (score : α → κ) (held : Option α) (x : α) : Option α :=
  match held with
  | none => some x
  | some y => if score y < score x then some x else held

def firstGreatest (score : α → κ) (items : List α) : Option α :=
  items.foldl (keepGreater score) none

/-- What is held after a scan that began with an item. -/
theorem foldl_keepGreater_some (y : α) : ∃ w, items.foldl (keepGreater score) (some y) = some w ∧
    w ∈ y :: items ∧ (∀ x ∈ y :: items, score x ≤ score w) ∧
    ((y :: items).filter fun x => score x = score w).head? = some w := by
  induction items generalizing y with
  | nil => exact ⟨y, rfl, by simp, by simp, by simp⟩
  | cons x rest ih =>
      rw [List.foldl_cons, keepGreater]
      split_ifs with less
      · obtain ⟨w, scanned, mem, greatest, first⟩ := ih x
        refine ⟨w, scanned, List.mem_cons_of_mem _ mem, ?_, ?_⟩
        · refine List.forall_mem_cons.mpr ⟨?_, greatest⟩
          exact le_trans (le_of_lt less) (greatest x List.mem_cons_self)
        · have other : ¬ score y = score w :=
            ne_of_lt (lt_of_lt_of_le less (greatest x List.mem_cons_self))
          rw [List.filter_cons_of_neg (by simpa using other)]
          exact first
      · obtain ⟨w, scanned, mem, greatest, first⟩ := ih y
        have bound : score x ≤ score w :=
          le_trans (not_lt.mp less) (greatest y List.mem_cons_self)
        refine ⟨w, scanned, ?_, ?_, ?_⟩
        · obtain rfl | mem := List.mem_cons.mp mem
          · exact List.mem_cons_self
          · exact List.mem_cons_of_mem _ (List.mem_cons_of_mem _ mem)
        · obtain ⟨head, tail⟩ := List.forall_mem_cons.mp greatest
          exact List.forall_mem_cons.mpr ⟨head, List.forall_mem_cons.mpr ⟨bound, tail⟩⟩
        · by_cases top : score y = score w
          · rw [List.filter_cons_of_pos (by simpa using top)] at first ⊢
            simpa using first
          · have lower : ¬ score x = score w := by
              intro same
              exact top (le_antisymm (greatest y List.mem_cons_self) (same ▸ not_lt.mp less))
            rw [List.filter_cons_of_neg (by simpa using top)] at first ⊢
            rw [List.filter_cons_of_neg (by simpa using lower)]
            exact first

theorem firstGreatest_eq_none : firstGreatest score items = none ↔ items = [] := by
  cases items with
  | nil => simp [firstGreatest]
  | cons y rest =>
      obtain ⟨w, scanned, -⟩ := @foldl_keepGreater_some _ _ _ score rest y
      simp [firstGreatest, keepGreater, scanned]

theorem firstGreatest_eq_some : firstGreatest score items = some w ↔
    (∀ x ∈ items, score x ≤ score w) ∧
      (items.filter fun x => score x = score w).head? = some w := by
  cases items with
  | nil => simp [firstGreatest]
  | cons y rest =>
      obtain ⟨v, scanned, -, greatest, first⟩ := @foldl_keepGreater_some _ _ _ score rest y
      have held : firstGreatest score (y :: rest) = some v := scanned
      rw [held]
      constructor
      · rintro ⟨⟩
        exact ⟨greatest, first⟩
      · rintro ⟨greatest', first'⟩
        have mem := (List.mem_filter.mp (List.mem_of_head? first)).1
        have mem' := (List.mem_filter.mp (List.mem_of_head? first')).1
        have level : score v = score w := le_antisymm (greatest' v mem) (greatest w mem')
        rw [level, first'] at first
        exact first.symm

/-- Of the items that count, what is found is greater than those before it, and those after it are
not greater. -/
theorem firstGreatest_filter_eq_some {p : α → Bool} :
    firstGreatest score (items.filter p) = some w ↔ p w = true ∧ ∃ before after,
      items = before ++ w :: after ∧ (∀ x ∈ before, p x = true → score x < score w) ∧
        ∀ x ∈ after, p x = true → ¬ score w < score x := by
  rw [firstGreatest_eq_some, List.filter_filter, List.head?_filter, List.find?_eq_some_iff_append]
  constructor
  · rintro ⟨greatest, held, before, after, rfl, first⟩
    have counts : p w = true := (Bool.and_eq_true_iff.mp held).2
    refine ⟨counts, before, after, rfl, fun x mem alike => ?_, fun x mem alike => ?_⟩
    · have bound := greatest x (List.mem_filter.mpr ⟨List.mem_append_left _ mem, alike⟩)
      refine lt_of_le_of_ne bound fun level => ?_
      have other := first x mem
      simp [alike, level] at other
    · exact not_lt.mpr (greatest x (List.mem_filter.mpr
        ⟨List.mem_append_right _ (List.mem_cons_of_mem _ mem), alike⟩))
  · rintro ⟨counts, before, after, rfl, first, last⟩
    refine ⟨fun x mem => ?_, by simp [counts], before, after, rfl, fun x mem => ?_⟩
    · obtain ⟨mem, alike⟩ := List.mem_filter.mp mem
      rw [List.mem_append, List.mem_cons] at mem
      obtain mem | rfl | mem := mem
      · exact le_of_lt (first x mem alike)
      · exact le_refl _
      · exact not_lt.mp (last x mem alike)
    · by_cases alike : p x = true
      · simp [alike, ne_of_lt (first x mem alike)]
      · simp [alike]

theorem mem_of_firstGreatest (h : firstGreatest score items = some w) : w ∈ items :=
  (List.mem_filter.mp (List.mem_of_head? (firstGreatest_eq_some.mp h).2)).1

/-- The scan finds the same item where the items of each score come in the same order. -/
theorem firstGreatest_congr
    (level : ∀ s, (items.filter fun x => score x = s) = others.filter fun x => score x = s) :
    firstGreatest score items = firstGreatest score others := by
  have bounded : ∀ {x}, x ∈ items ↔ x ∈ others := by
    intro x
    have same : x ∈ items.filter (fun y => score y = score x) ↔
        x ∈ others.filter fun y => score y = score x := by rw [level]
    simpa using same
  apply Option.ext
  intro w
  simp only [firstGreatest_eq_some, level, bounded]

end AdCoder.Foundation
