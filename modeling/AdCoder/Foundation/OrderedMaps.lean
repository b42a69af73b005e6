import Mathlib.Data.List.Nodup

/-!
# Maps in insertion order

A map is the list of its entries. A new key goes to the end, and a known key keeps its
place when its value is replaced.
-/

namespace AdCoder.Foundation.OrderedMap

variable {κ α : Type} [DecidableEq κ] {m : List (κ × α)} {key other : κ} {value : α}

def get? (m : List (κ × α)) (key : κ) : Option α :=
  (m.find? fun entry => entry.1 = key).map (·.2)

def has (m : List (κ × α)) (key : κ) : Bool := (get? m key).isSome

def put (key : κ) (value : α) : List (κ × α) → List (κ × α)
  | [] => [(key, value)]
  | (other, held) :: rest =>
      if other = key then (key, value) :: rest else (other, held) :: put key value rest

@[simp] theorem get?_nil : get? ([] : List (κ × α)) key = none := rfl

@[simp] theorem get?_cons {held : α} : get? ((other, held) :: m) key =
    if other = key then some held else get? m key := by
  rw [get?, List.find?_cons]
  by_cases same : other = key <;> simp [same, get?]

theorem get?_put : get? (put key value m) other = if key = other then some value else get? m other := by
  induction m with
  | nil => simp [put]
  | cons entry rest ih =>
      obtain ⟨first, held⟩ := entry
      rw [put]
      by_cases same : first = key
      · subst same
        simp only [if_true, get?_cons]
        split_ifs <;> rfl
      · rw [if_neg same, get?_cons, get?_cons, ih]
        by_cases here : first = other
        · subst here
          simp [Ne.symm same]
        · simp [here]

theorem keys_put : (put key value m).map (·.1) =
    if key ∈ m.map (·.1) then m.map (·.1) else m.map (·.1) ++ [key] := by
  induction m with
  | nil => rfl
  | cons entry rest ih =>
      obtain ⟨first, held⟩ := entry
      rw [put]
      by_cases same : first = key
      · subst same
        simp
      · rw [if_neg same, List.map_cons, ih]
        by_cases known : key ∈ rest.map (·.1)
        · have within : key ∈ ((first, held) :: rest).map (·.1) := List.mem_cons_of_mem _ known
          rw [if_pos known, if_pos within]
          rfl
        · have outside : key ∉ ((first, held) :: rest).map (·.1) := by
            rw [List.map_cons, List.mem_cons, not_or]
            exact ⟨Ne.symm same, known⟩
          rw [if_neg known, if_neg outside]
          rfl

theorem nodup_put (distinct : (m.map (·.1)).Nodup) : ((put key value m).map (·.1)).Nodup := by
  rw [keys_put]
  split_ifs with known
  · exact distinct
  · refine List.nodup_append.mpr ⟨distinct, by simp, fun x mem y among => ?_⟩
    rw [List.mem_singleton.mp among]
    exact fun same => known (same ▸ mem)

theorem mem_of_get? (found : get? m key = some value) : (key, value) ∈ m := by
  obtain ⟨⟨other, held⟩, first, rfl⟩ := Option.map_eq_some_iff.mp found
  obtain rfl : other = key := by simpa using List.find?_some first
  exact List.mem_of_find?_eq_some first

theorem mem_put {entry : κ × α} (mem : entry ∈ put key value m) :
    entry = (key, value) ∨ entry ∈ m := by
  induction m with
  | nil => exact Or.inl (List.mem_singleton.mp mem)
  | cons first rest ih =>
      obtain ⟨other, held⟩ := first
      rw [put] at mem
      split_ifs at mem with same
      · obtain here | later := List.mem_cons.mp mem
        · exact Or.inl here
        · exact Or.inr (List.mem_cons_of_mem _ later)
      · obtain here | later := List.mem_cons.mp mem
        · exact Or.inr (here ▸ List.mem_cons_self)
        · exact (ih later).imp id (List.mem_cons_of_mem _)

/-- An entry is what its key finds. -/
theorem mem_iff (distinct : (m.map (·.1)).Nodup) : (key, value) ∈ m ↔ get? m key = some value := by
  induction m with
  | nil => simp
  | cons entry rest ih =>
      obtain ⟨first, held⟩ := entry
      rw [List.map_cons, List.nodup_cons] at distinct
      rw [List.mem_cons, ih distinct.2, get?_cons, Prod.mk.injEq]
      by_cases same : first = key
      · subst same
        have absent : get? rest first ≠ some value := by
          intro found
          exact distinct.1 (List.mem_map.mpr ⟨_, (ih distinct.2).mpr found, rfl⟩)
        simp [absent, eq_comm]
      · simp [same, Ne.symm same]

end AdCoder.Foundation.OrderedMap
