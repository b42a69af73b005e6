import AdCoder.Foundation.JsonReaders
import Mathlib.Algebra.GroupWithZero.Nat

/-!
# The size of JSON texts

The bytes of an object's text are those of its members, so texts that differ in
one string are compared by that string.
-/

namespace AdCoder.Foundation

theorem byteLength_append (a b : String) : byteLength (a ++ b) = byteLength a + byteLength b := by
  simp [byteLength]

theorem byteLength_ofList (text : List Char) :
    byteLength (String.ofList text) = (text.map Char.utf8Size).sum := by
  induction text with
  | nil => rfl
  | cons x rest ih =>
      have one : byteLength (String.ofList [x]) = x.utf8Size := by
        simp [byteLength, String.ofList, List.utf8Encode_singleton, String.utf8ByteSize]
      rw [← List.singleton_append, String.ofList_append, byteLength_append, one, ih]
      simp

theorem sum_utf8Size_le (text : List Char) : (text.map Char.utf8Size).sum ≤ text.length * 4 := by
  induction text with
  | nil => exact Nat.le_refl 0
  | cons x rest ih =>
      have one := x.utf8Size_le_four
      rw [List.map_cons, List.sum_cons, List.length_cons]
      omega

theorem byteLength_le (text : String) : byteLength text ≤ text.length * 4 := by
  rw [← String.ofList_toList (s := text), byteLength_ofList, String.length_ofList]
  exact sum_utf8Size_le _

namespace Json

/-- The bytes of a character in a quoted string. -/
def escapedBytes (x : Char) : Nat := ((escape x).map Char.utf8Size).sum

theorem byteLength_quote (text : String) :
    byteLength (quote text) = (text.toList.map escapedBytes).sum + 2 := by
  have inner (chars : List Char) : ((chars.flatMap escape).map Char.utf8Size).sum =
      (chars.map escapedBytes).sum := by
    induction chars with
    | nil => rfl
    | cons x rest ih => simp [escapedBytes, ih]
  have mark : Char.utf8Size '"' = 1 := rfl
  rw [quote, byteLength_ofList]
  simp only [List.map_cons, List.map_append, List.map_nil, List.cons_append, List.sum_cons,
    List.sum_append, List.sum_nil, inner, mark]
  omega

theorem escapedBytes_le (x : Char) : escapedBytes x ≤ 24 := by
  have few : (escape x).length ≤ 6 := by
    unfold escape
    split_ifs
    all_goals simp
  calc
    escapedBytes x ≤ (escape x).length * 4 := sum_utf8Size_le _
    _ ≤ 24 := by omega

theorem byteLength_quote_le (text : String) :
    byteLength (quote text) ≤ text.toList.length * 24 + 2 := by
  have bytes (chars : List Char) : (chars.map escapedBytes).sum ≤ chars.length * 24 := by
    induction chars with
    | nil => exact Nat.le_refl 0
    | cons x rest ih =>
        have one := escapedBytes_le x
        rw [List.map_cons, List.sum_cons, List.length_cons]
        omega
  have all := bytes text.toList
  rw [byteLength_quote]
  omega

/-- A string of one character. -/
theorem byteLength_quote_replicate (x : Char) (count : Nat) :
    byteLength (quote (String.ofList (List.replicate count x))) = count * escapedBytes x + 2 := by
  simp [byteLength_quote, List.map_replicate]

/-- Every member costs its texts, a colon and a separator or brace. -/
theorem byteLength_objectText {members : List (String × String)} (some : members ≠ []) :
    byteLength (objectText members) =
      (members.map fun m => byteLength (quote m.1) + byteLength m.2 + 2).sum + 1 := by
  have joined : byteLength (",".intercalate (members.map fun m => quote m.1 ++ ":" ++ m.2)) + 1 =
      (members.map fun m => byteLength (quote m.1) + byteLength m.2 + 2).sum := by
    induction members with
    | nil => exact absurd rfl some
    | cons first rest ih =>
        have colon : byteLength ":" = 1 := rfl
        have comma : byteLength "," = 1 := rfl
        cases rest with
        | nil =>
            simp only [List.map_cons, List.map_nil, String.intercalate_singleton, byteLength_append,
              List.sum_cons, List.sum_nil, colon]
            omega
        | cons next rest =>
            have later := ih (by simp)
            simp only [List.map_cons, List.sum_cons] at later ⊢
            rw [String.intercalate_cons_cons]
            simp only [byteLength_append, colon, comma]
            omega
  have opening : byteLength "\x7b" = 1 := rfl
  have closing : byteLength "\x7d" = 1 := rfl
  rw [objectText, byteLength_append, byteLength_append, opening, closing]
  omega

/-- The bytes of a property and its colon and separator; one that is undefined is not written. -/
def propertyBytes (showNumber : JsNumber → String) (property : String × Option Json) : Nat :=
  match property.2 with
  | none => 0
  | some value => byteLength (quote property.1) + byteLength (value.stringify showNumber) + 2

variable {showNumber : JsNumber → String}

theorem propertyBytes_none (name : String) : propertyBytes showNumber (name, none) = 0 := rfl

theorem propertyBytes_some (name : String) (value : Json) :
    propertyBytes showNumber (name, some value) =
      byteLength (quote name) + byteLength (value.stringify showNumber) + 2 := rfl

theorem propertyBytes_map {α : Type} (name : String) (held : Option α) (toJson : α → Json) :
    propertyBytes showNumber (name, held.map toJson) =
      held.elim 0 fun a =>
        byteLength (quote name) + byteLength ((toJson a).stringify showNumber) + 2 := by
  cases held <;> rfl

theorem byteLength_object {name : String} {value : Json} {rest : List (String × Option Json)} :
    byteLength ((object ((name, some value) :: rest)).stringify showNumber) =
      propertyBytes showNumber (name, some value) +
        (rest.map (propertyBytes showNumber)).sum + 1 := by
  have members (properties : List (String × Option Json)) :
      ((stringifyFields showNumber (fields properties)).map fun m =>
        byteLength (quote m.1) + byteLength m.2 + 2).sum =
      (properties.map (propertyBytes showNumber)).sum := by
    induction properties with
    | nil => rfl
    | cons property rest ih =>
        obtain ⟨name, held⟩ := property
        cases held with
        | none => simpa [fields, propertyBytes] using ih
        | some value => simp [fields, stringifyFields, propertyBytes, ih]
  have all := members ((name, some value) :: rest)
  rw [fields, stringifyFields, List.map_cons (f := propertyBytes showNumber), List.sum_cons] at all
  rw [object, fields, stringify, stringifyFields, byteLength_objectText (List.cons_ne_nil _ _), all]

theorem byteLength_ofNat (n : Nat) :
    byteLength ((ofNat n).stringify showNumber) = byteLength (showNumber (.finite n)) := by
  simp [ofNat, stringify, JsNumber.isFinite]

theorem byteLength_str (text : String) :
    byteLength ((Json.str text).stringify showNumber) = byteLength (quote text) := by
  rw [stringify]

end Json

end AdCoder.Foundation
