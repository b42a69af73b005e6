import AdCoder.Foundation.JsonReaders
import AdCoder.Foundation.JsonRoundTrip

/-!
# The members of objects

Which member a name finds after another is set or deleted, and which objects are read back
from their text.
-/

namespace AdCoder.Foundation

namespace JsonText

/-! ## Properties -/

section Properties

variable {name other : String} {value : Json} {fields : List (String × Json)}

theorem mem_of_lookup (h : Json.lookup name fields = some value) :
    ∃ field ∈ fields, field.2 = value := by
  induction fields with
  | nil => cases h
  | cons field rest ih =>
      obtain ⟨key, first⟩ := field
      rw [Json.lookup_cons] at h
      split_ifs at h with same
      · exact ⟨(key, first), List.mem_cons_self, Option.some.inj h⟩
      · obtain ⟨found, mem, rfl⟩ := ih h
        exact ⟨found, List.mem_cons_of_mem _ mem, rfl⟩

theorem lookup_insert : Json.lookup name (insert other value fields) =
    if other = name then some value else Json.lookup name fields := by
  induction fields with
  | nil => rfl
  | cons field rest ih =>
      obtain ⟨key, first⟩ := field
      rw [insert]
      split_ifs with same
      all_goals simp_all

theorem lookup_filter : Json.lookup name (fields.filter fun field => field.1 ≠ other) =
    if other = name then none else Json.lookup name fields := by
  induction fields with
  | nil => simp
  | cons field rest ih =>
      obtain ⟨key, first⟩ := field
      by_cases same : key = other
      · subst same
        rw [List.filter_cons_of_neg (by simp), ih, Json.lookup_cons]
        split_ifs <;> rfl
      · rw [List.filter_cons_of_pos (by simpa using same), Json.lookup_cons, Json.lookup_cons, ih]
        split_ifs with first second
        all_goals first | rfl | simp_all

theorem keys_insert : (insert other value fields).map (·.1) =
    if other ∈ fields.map (·.1) then fields.map (·.1) else fields.map (·.1) ++ [other] := by
  induction fields with
  | nil => rfl
  | cons field rest ih =>
      obtain ⟨key, first⟩ := field
      rw [insert]
      by_cases same : key = other
      · rw [if_pos same]
        simp [same]
      · rw [if_neg same, List.map_cons, ih]
        by_cases known : other ∈ rest.map (·.1)
        · have within : other ∈ ((key, first) :: rest).map (·.1) := List.mem_cons_of_mem _ known
          rw [if_pos known, if_pos within]
          rfl
        · have outside : other ∉ ((key, first) :: rest).map (·.1) := by
            rw [List.map_cons, List.mem_cons, not_or]
            exact ⟨Ne.symm same, known⟩
          rw [if_neg known, if_neg outside]
          rfl

theorem mem_insert {field : String × Json} (mem : field ∈ insert other value fields) :
    field = (other, value) ∨ field ∈ fields := by
  induction fields with
  | nil => exact Or.inl (List.mem_singleton.mp mem)
  | cons first rest ih =>
      obtain ⟨key, held⟩ := first
      rw [insert] at mem
      split_ifs at mem with same
      · obtain rfl | mem := List.mem_cons.mp mem
        · exact Or.inl (by rw [same])
        · exact Or.inr (List.mem_cons_of_mem _ mem)
      · obtain rfl | mem := List.mem_cons.mp mem
        · exact Or.inr List.mem_cons_self
        · obtain new | old := ih mem
          · exact Or.inl new
          · exact Or.inr (List.mem_cons_of_mem _ old)

theorem mem_keys_iff : name ∈ fields.map (·.1) ↔ (Json.lookup name fields).isSome := by
  induction fields with
  | nil => simp
  | cons field rest ih =>
      obtain ⟨key, first⟩ := field
      rw [List.map_cons, List.mem_cons, ih, Json.lookup_cons]
      split_ifs with same
      · simp [same]
      · simp [Ne.symm same]

end Properties

/-! ## Objects that are read back -/

section ReadBack

variable {format : NumberFormat} {fields : List (String × Json)} {name : String} {value : Json}

theorem keys_fields_sublist (properties : List (String × Option Json)) :
    ((Json.fields properties).map (·.1)).Sublist (properties.map (·.1)) := by
  induction properties with
  | nil => exact List.Sublist.refl []
  | cons property rest ih =>
      obtain ⟨key, held⟩ := property
      cases held with
      | none => exact ih.cons key
      | some value => exact ih.cons_cons key

theorem readable_object {properties : List (String × Option Json)}
    (distinct : (properties.map (·.1)).Nodup)
    (readable : ∀ property ∈ properties, ∀ value, property.2 = some value →
      Readable format value) : Readable format (.obj (Json.fields properties)) := by
  rw [Readable, readableFields_iff]
  refine ⟨distinct.sublist (keys_fields_sublist properties), ?_⟩
  rintro ⟨key, value⟩ member
  exact readable (key, some value) (Json.mem_fields.mp member) value rfl

theorem readable_lookup (readable : Readable format (.obj fields))
    (found : Json.lookup name fields = some value) : Readable format value := by
  rw [Readable, readableFields_iff] at readable
  obtain ⟨member, mem, same⟩ := mem_of_lookup found
  rw [← same]
  exact readable.2 member mem

theorem readable_arr {items : List Json} :
    Readable format (.arr items) ↔ ∀ item ∈ items, Readable format item := by
  rw [Readable, readableItems_iff]

/-- Values that are read back are the same when their texts are. -/
theorem stringify_inj {other : Json} (readable : Readable format value)
    (readable' : Readable format other) :
    Json.stringify format.print value = Json.stringify format.print other ↔ value = other := by
  refine ⟨fun same => ?_, fun same => by rw [same]⟩
  have read := parse_stringify readable
  rw [same, parse_stringify readable'] at read
  exact (Option.some.inj read).symm

end ReadBack

end JsonText

end AdCoder.Foundation
