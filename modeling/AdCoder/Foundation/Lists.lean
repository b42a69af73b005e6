import Mathlib.Data.Finset.Card

/-!
# Lists compared as sets

Comparing the length of a list with the number of distinct members of another,
together with membership, decides equality of their sets of members exactly
when the list repeats no member. Related lists have related members. A list is
split at a separator piece by piece. A list of pairs is read by its keys.
-/

namespace AdCoder.Foundation

variable {α : Type*} [DecidableEq α]

/-- Two lists with the same members, each once in the first. -/
def ListsOnce (submitted required : List α) : Prop :=
  submitted.Nodup ∧ ∀ x, x ∈ submitted ↔ x ∈ required

theorem subset_iff_nodup {submitted required : List α}
    (length : submitted.length = required.dedup.length) (known : submitted ⊆ required) :
    required ⊆ submitted ↔ submitted.Nodup := by
  have hcard : required.toFinset.card = submitted.length := by
    rw [List.card_toFinset, length]
  have hsub : submitted.toFinset ⊆ required.toFinset := by
    intro x hx
    exact List.mem_toFinset.mpr (known (List.mem_toFinset.mp hx))
  constructor
  · intro all
    have heq : submitted.toFinset = required.toFinset := by
      apply Finset.Subset.antisymm hsub
      intro x hx
      exact List.mem_toFinset.mpr (all (List.mem_toFinset.mp hx))
    have hlen : submitted.dedup.length = submitted.length := by
      rw [← List.card_toFinset, heq, hcard]
    rw [← List.dedup_eq_self]
    exact (List.dedup_sublist submitted).eq_of_length hlen
  · intro nodup x hx
    have heq : submitted.toFinset = required.toFinset := by
      apply Finset.eq_of_subset_of_card_le hsub
      rw [hcard, List.toFinset_card_of_nodup nodup]
    exact List.mem_toFinset.mp (heq ▸ List.mem_toFinset.mpr hx)

/-- A list as long as the distinct members it covers lists each of them once. -/
theorem listsOnce_of_cover {submitted required : List α}
    (length : submitted.length = required.dedup.length)
    (distinct : submitted.dedup.length = required.dedup.length) (cover : required ⊆ submitted) :
    ListsOnce submitted required := by
  have nodup : submitted.Nodup := by
    rw [← List.dedup_eq_self]
    exact (List.dedup_sublist submitted).eq_of_length (distinct.trans length.symm)
  have hsub : required.toFinset ⊆ submitted.toFinset := by
    intro x hx
    exact List.mem_toFinset.mpr (cover (List.mem_toFinset.mp hx))
  have heq : required.toFinset = submitted.toFinset := by
    apply Finset.eq_of_subset_of_card_le hsub
    rw [List.card_toFinset, List.card_toFinset, distinct]
  refine ⟨nodup, fun x => ?_⟩
  rw [← List.mem_toFinset, ← heq, List.mem_toFinset]

/-- A list of distinct known members as long as their number lists each once. -/
theorem listsOnce_of_nodup {submitted required : List α}
    (length : submitted.length = required.dedup.length) (nodup : submitted.Nodup)
    (known : submitted ⊆ required) : ListsOnce submitted required :=
  ⟨nodup, fun _ => ⟨fun h => known h, fun h => (subset_iff_nodup length known).mpr nodup h⟩⟩

/-- An element of a split list is the last one or one before it. -/
theorem split_concat {β : Type*} {front before after : List β} {last x : β}
    (h : front ++ [last] = before ++ x :: after) :
    (after = [] ∧ before = front ∧ x = last) ∨
      ∃ rest, after = rest ++ [last] ∧ front = before ++ x :: rest := by
  rcases after.eq_nil_or_concat with rfl | ⟨rest, y, rfl⟩
  · obtain ⟨rfl, same⟩ := List.append_inj' h rfl
    exact .inl ⟨rfl, rfl, (List.cons.inj same).1.symm⟩
  · have split : front ++ [last] = (before ++ x :: rest) ++ [y] := by simpa using h
    obtain ⟨hfront, hlast⟩ := List.append_inj' split rfl
    obtain rfl : last = y := by simpa using hlast
    exact .inr ⟨rest, by simp, hfront⟩

/-- The last element of a split list ends the part after any other element. -/
theorem split_last {β : Type*} {front before after : List β} {last x : β}
    (h : front ++ [last] = before ++ x :: after) (ne : last ≠ x) :
    ∃ rest, after = rest ++ [last] ∧ front = before ++ x :: rest := by
  rcases split_concat h with ⟨-, -, same⟩ | split
  · exact absurd same.symm ne
  · exact split

/-- An element that is not in the front part stands in the rest. -/
theorem split_after_front {β : Type*} {front rest before after : List β} {x : β}
    (fresh : x ∉ front) (h : front ++ rest = before ++ x :: after) :
    ∃ part, before = front ++ part ∧ rest = part ++ x :: after := by
  rcases List.append_eq_append_iff.mp h with ⟨part, same, split⟩ | ⟨part, same, split⟩
  · exact ⟨part, same, split⟩
  · cases part with
    | nil => exact ⟨[], by rw [same, List.append_nil, List.append_nil], split.symm⟩
    | cons y ys =>
        obtain ⟨rfl, -⟩ := List.cons.inj split
        exact absurd (by simp [same]) fresh

/-- An element that is not in the back part stands before it. -/
theorem split_before_back {β : Type*} {rest back before after : List β} {x : β}
    (fresh : x ∉ back) (h : rest ++ back = before ++ x :: after) :
    ∃ part, after = part ++ back ∧ rest = before ++ x :: part := by
  have reversed : back.reverse ++ rest.reverse = after.reverse ++ x :: before.reverse := by
    simpa using congrArg List.reverse h
  obtain ⟨part, same, split⟩ :=
    split_after_front (fun member => fresh (List.mem_reverse.mp member)) reversed
  refine ⟨part.reverse, ?_, ?_⟩
  · simpa using congrArg List.reverse same
  · simpa using congrArg List.reverse split

section Related

variable {β γ : Type*} {R : β → γ → Prop} {left : List β} {right : List γ}

theorem exists_related_right (h : List.Forall₂ R left right) {x : β} (hx : x ∈ left) :
    ∃ y ∈ right, R x y := by
  induction h with
  | nil => cases hx
  | cons hxy _ ih =>
      rcases List.mem_cons.mp hx with rfl | hx
      · exact ⟨_, List.mem_cons_self, hxy⟩
      · obtain ⟨y, hy, related⟩ := ih hx
        exact ⟨y, List.mem_cons_of_mem _ hy, related⟩

theorem exists_related_left (h : List.Forall₂ R left right) {y : γ} (hy : y ∈ right) :
    ∃ x ∈ left, R x y :=
  exists_related_right (R := flip R) h.flip hy

end Related

/-- A split at a separator: there is none, or the pieces go on after the first one. -/
theorem splitOn_cases (separator : α) (xs : List α) :
    (separator ∉ xs ∧ xs.splitOn separator = [xs]) ∨
      ∃ first rest, xs = first ++ separator :: rest ∧ separator ∉ first ∧
        xs.splitOn separator = first :: rest.splitOn separator := by
  by_cases member : separator ∈ xs
  · obtain ⟨first, rest, rfl, fresh⟩ := List.eq_append_cons_of_mem member
    exact .inr ⟨first, rest, rfl, fresh, List.splitOn_append_cons_self_of_not_mem fresh rest⟩
  · exact .inl ⟨member, List.splitOn_eq_singleton member⟩

/-- No piece holds the separator. -/
theorem separator_notMem_splitOn {separator : α} {xs piece : List α}
    (member : piece ∈ xs.splitOn separator) : separator ∉ piece := by
  generalize size : xs.length = n
  induction n using Nat.strongRecOn generalizing xs with
  | ind n ih =>
      rcases splitOn_cases separator xs with ⟨fresh, single⟩ | ⟨first, rest, rfl, fresh, split⟩
      · rw [single] at member
        exact List.mem_singleton.mp member ▸ fresh
      · rw [split] at member
        rcases List.mem_cons.mp member with rfl | later
        · exact fresh
        · exact ih rest.length (by simp at size; omega) later rfl

/-- Without a separator in it, a front only lengthens the first piece. -/
theorem splitOn_front {separator : α} {front xs first : List α} {rest : List (List α)}
    (fresh : separator ∉ front) (split : xs.splitOn separator = first :: rest) :
    (front ++ xs).splitOn separator = (front ++ first) :: rest := by
  rcases splitOn_cases separator xs with ⟨none, single⟩ | ⟨piece, later, rfl, none, pieces⟩
  · obtain ⟨rfl, rfl⟩ := List.cons.inj (single.symm.trans split)
    exact List.splitOn_eq_singleton (by simp [fresh, none])
  · obtain ⟨rfl, rfl⟩ := List.cons.inj (pieces.symm.trans split)
    rw [← List.append_assoc]
    exact List.splitOn_append_cons_self_of_not_mem (by simp [fresh, none]) later

/-- The last piece goes on into what is put behind. -/
theorem splitOn_append {separator : α} {xs last : List α} {front : List (List α)}
    (split : xs.splitOn separator = front ++ [last]) (ys : List α) :
    (xs ++ ys).splitOn separator = front ++ (last ++ ys).splitOn separator := by
  induction front generalizing xs with
  | nil =>
      rcases splitOn_cases separator xs with ⟨none, single⟩ | ⟨piece, later, rfl, none, pieces⟩
      · obtain rfl : xs = last := by simpa [single] using split
        rfl
      · have more := List.splitOn_ne_nil separator later
        simp [pieces, more] at split
  | cons head front ih =>
      rcases splitOn_cases separator xs with ⟨none, single⟩ | ⟨piece, later, rfl, none, pieces⟩
      · simp [single] at split
      · rw [pieces, List.cons_append] at split
        obtain ⟨rfl, rest⟩ := List.cons.inj split
        rw [List.append_assoc, List.cons_append,
          List.splitOn_append_cons_self_of_not_mem none, ih rest, List.cons_append]

/-- Pieces that are joined by a separator, up to the last one. -/
theorem intercalate_concat {β : Type*} (separator : β) (pieces : List (List β)) (last : List β) :
    [separator].intercalate (pieces ++ [last]) =
      pieces.flatMap (· ++ [separator]) ++ last := by
  induction pieces with
  | nil => simp
  | cons piece rest ih =>
      obtain ⟨next, more, same⟩ : ∃ next more, rest ++ [last] = next :: more :=
        List.exists_cons_of_ne_nil (by simp)
      rw [List.cons_append, same, List.intercalate_cons_cons, ← same, ih]
      simp

/-- Joined pieces have the separator and the members of the pieces. -/
theorem mem_intercalate {β : Type*} {separator x : β} {pieces : List (List β)}
    (member : x ∈ [separator].intercalate pieces) : x = separator ∨ ∃ piece ∈ pieces, x ∈ piece := by
  obtain rfl | ⟨front, last, rfl⟩ := List.eq_nil_or_concat' pieces
  · cases member
  · rw [intercalate_concat, List.mem_append, List.mem_flatMap] at member
    obtain ⟨piece, among, inside⟩ | inside := member
    · obtain inside | same := List.mem_append.mp inside
      · exact .inr ⟨piece, List.mem_append_left _ among, inside⟩
      · exact .inl (List.mem_singleton.mp same)
    · exact .inr ⟨last, List.mem_append_right _ List.mem_cons_self, inside⟩

omit [DecidableEq α] in
/-- Each value stays once. -/
theorem nodup_eraseDups [BEq α] [LawfulBEq α] (l : List α) : l.eraseDups.Nodup := by
  induction hlen : l.length using Nat.strong_induction_on generalizing l with
  | _ n ih =>
      cases l with
      | nil => simp
      | cons first rest =>
          have shorter : (rest.filter fun x => !(x == first)).length < n := by
            have := List.length_filter_le (fun x => !(x == first)) rest
            simp only [List.length_cons] at hlen
            omega
          rw [List.eraseDups_cons, List.nodup_cons, List.mem_eraseDups]
          exact ⟨by simp, ih _ shorter _ rfl⟩

/-- What comes first among the kept members comes first in the list. -/
theorem idxOf_le_of_filter {p : α → Bool} {l : List α} {a b : α} (ha : p a = true)
    (hb : p b = true) (h : (l.filter p).idxOf a ≤ (l.filter p).idxOf b) :
    l.idxOf a ≤ l.idxOf b := by
  induction l with
  | nil => exact Nat.le_refl _
  | cons x rest ih =>
      by_cases isA : x = a
      · subst isA
        simp
      · by_cases isB : x = b
        · subst isB
          simp [hb, List.idxOf_cons_ne _ isA] at h
        · rw [List.idxOf_cons_ne _ isA, List.idxOf_cons_ne _ isB]
          refine Nat.succ_le_succ (ih ?_)
          by_cases hx : p x = true
          · rw [List.filter_cons_of_pos hx, List.idxOf_cons_ne _ isA, List.idxOf_cons_ne _ isB] at h
            exact Nat.le_of_succ_le_succ h
          · rwa [List.filter_cons_of_neg hx] at h

omit [DecidableEq α] in
/-- Under distinct keys every pair is the one that its key finds. -/
theorem lookup_of_mem {β : Type*} [BEq α] [LawfulBEq α] {pairs : List (α × β)} {key : α}
    {value : β} (distinct : (pairs.map (·.1)).Nodup) (member : (key, value) ∈ pairs) :
    pairs.lookup key = some value := by
  induction pairs with
  | nil => cases member
  | cons pair rest ih =>
      obtain ⟨fresh, distinct⟩ := List.nodup_cons.mp distinct
      obtain rfl | member := List.mem_cons.mp member
      · rw [List.lookup_cons_self]
      · have other : key ≠ pair.1 := by
          rintro rfl
          exact fresh (List.mem_map.mpr ⟨_, member, rfl⟩)
        rw [List.lookup_cons, beq_false_of_ne other]
        exact ih distinct member

end AdCoder.Foundation
