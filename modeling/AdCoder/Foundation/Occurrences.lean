import Mathlib.Data.List.Infix

/-!
# Occurrences of a word in a text

How often a word occurs, and what an appended text adds: a character that the
word lacks separates the occurrences on its two sides.
-/

namespace AdCoder.Foundation

variable {α : Type} [DecidableEq α]

/-- The number of positions where the word starts. -/
def occurrences (word : List α) : List α → Nat
  | [] => 0
  | x :: rest => (if word.isPrefixOf (x :: rest) then 1 else 0) + occurrences word rest

/-- `String.prototype.includes`, for a word that is not empty. -/
def includes (word text : List α) : Bool := occurrences word text != 0

variable {word : List α}

@[simp] theorem occurrences_nil : occurrences word [] = 0 := rfl

theorem occurrences_cons (x : α) (rest : List α) :
    occurrences word (x :: rest) =
      (if word.isPrefixOf (x :: rest) then 1 else 0) + occurrences word rest := rfl

theorem occurrences_of_not_includes {text : List α} (h : includes word text = false) :
    occurrences word text = 0 := by
  simpa [includes] using h

/-- A word without the separator ends before it. -/
theorem isPrefixOf_append_cons {b : α} (h : b ∉ word) (front back : List α) :
    word.isPrefixOf (front ++ b :: back) = word.isPrefixOf front := by
  induction word generalizing front with
  | nil => simp
  | cons y word ih =>
      obtain ⟨hy, hword⟩ := List.ne_and_not_mem_of_not_mem_cons h
      cases front with
      | nil => simp [List.isPrefixOf, Ne.symm hy]
      | cons x front =>
          rw [List.cons_append, List.isPrefixOf, List.isPrefixOf, ih hword]

theorem occurrences_append_cons {b : α} (nonempty : word ≠ []) (h : b ∉ word)
    (front back : List α) :
    occurrences word (front ++ b :: back) = occurrences word front + occurrences word back := by
  induction front with
  | nil =>
      have apart : word.isPrefixOf (b :: back) = false := by
        rw [← List.nil_append (b :: back), isPrefixOf_append_cons h]
        cases word with
        | nil => cases nonempty rfl
        | cons y word => rfl
      rw [List.nil_append, occurrences_cons, apart, occurrences_nil]
      rfl
  | cons x front ih =>
      have same : word.isPrefixOf (x :: (front ++ b :: back)) = word.isPrefixOf (x :: front) :=
        isPrefixOf_append_cons h (x :: front) back
      rw [List.cons_append, occurrences_cons, occurrences_cons, ih, same]
      omega

/-- A part at the front holds no more occurrences than the whole. -/
theorem occurrences_le_of_isPrefixOf {part text : List α} (h : part <+: text) :
    occurrences word part ≤ occurrences word text := by
  induction part generalizing text with
  | nil => simp
  | cons x part ih =>
      obtain ⟨tail, rfl⟩ := h
      have rest : occurrences word part ≤ occurrences word (part ++ tail) :=
        ih (List.prefix_append part tail)
      rw [List.cons_append, occurrences_cons, occurrences_cons]
      by_cases found : word.isPrefixOf (x :: part) = true
      · have longer : word.isPrefixOf (x :: (part ++ tail)) = true := by
          rw [List.isPrefixOf_iff_prefix] at found ⊢
          exact found.trans (List.prefix_append (x :: part) tail)
        rw [if_pos found, if_pos longer]
        omega
      · rw [if_neg found]
        omega

/-- A longer word occurs no more often. -/
theorem occurrences_le_of_word {longer : List α} (h : word <+: longer) (text : List α) :
    occurrences longer text ≤ occurrences word text := by
  induction text with
  | nil => simp
  | cons x rest ih =>
      rw [occurrences_cons, occurrences_cons]
      by_cases found : longer.isPrefixOf (x :: rest) = true
      · have shorter : word.isPrefixOf (x :: rest) = true := by
          rw [List.isPrefixOf_iff_prefix] at found ⊢
          exact h.trans found
        rw [if_pos found, if_pos shorter]
        omega
      · rw [if_neg found]
        omega

/-- A word does not start in a text that lacks its first character. -/
theorem occurrences_of_not_mem {x : α} {text : List α} (h : x ∉ text) :
    occurrences (x :: word) text = 0 := by
  induction text with
  | nil => rfl
  | cons y rest ih =>
      obtain ⟨hy, hrest⟩ := List.ne_and_not_mem_of_not_mem_cons h
      rw [occurrences_cons, ih hrest]
      simp [List.isPrefixOf, hy]

end AdCoder.Foundation
