import AdCoder.Foundation.JsonLaws
import AdCoder.Foundation.Lists

/-!
# Values that are read back from their text

A value whose numbers the host reads back, and whose objects have no key twice,
is read back from the text that is printed for it. The text of a value is read
up to a character that no numeral has.
-/

namespace AdCoder.Foundation

namespace JsonText

variable {format : NumberFormat}

/-! ## Strings -/

theorem hexValue?_hexDigit : ∀ n < 16, hexValue? (Json.hexDigit n) = some n := by decide +kernel

theorem unit?_escape {n : Nat} (small : n < 32) :
    unit? '0' '0' (Json.hexDigit (n / 16)) (Json.hexDigit (n % 16)) = some n := by
  have high := hexValue?_hexDigit (n / 16) (by omega)
  have low := hexValue?_hexDigit (n % 16) (by omega)
  have zero : hexValue? '0' = some 0 := by decide
  simp only [unit?, zero, high, low, Option.bind_eq_bind, Option.bind_some, Option.pure_def,
    Option.some.injEq]
  omega

/-- One printed character is read back. -/
theorem readString_escape (x : Char) (fuel : Nat) (done rest : List Char) :
    readString (fuel + 1) done (Json.escape x ++ rest) = readString fuel (x :: done) rest := by
  have same {n : Nat} (code : x.toNat = n) : x = Char.ofNat n := by
    rw [← code, Char.ofNat_toNat]
  rw [Json.escape]
  split_ifs with quote backslash eight tab newline twelve feed control
  · subst quote
    rfl
  · subst backslash
    rfl
  · rw [same eight]
    rfl
  · subst tab
    rfl
  · subst newline
    rfl
  · rw [same twelve]
    rfl
  · subst feed
    rfl
  · simp only [List.cons_append, List.nil_append, readString, unit?_escape control]
    rw [if_neg (by omega), if_neg (by omega), Char.ofNat_toNat]
  · simp only [List.cons_append, List.nil_append]
    rw [readString]
    · rw [if_neg]
      simp only [not_or]
      exact ⟨backslash, control⟩
    all_goals simp_all

/-- A printed string is read back up to its closing quote. -/
theorem readString_quote (text : List Char) (fuel : Nat) (done rest : List Char)
    (enough : (text.flatMap Json.escape).length < fuel) :
    readString fuel done (text.flatMap Json.escape ++ '"' :: rest) =
      some (String.ofList (done.reverse ++ text), rest) := by
  induction text generalizing fuel done with
  | nil =>
      obtain ⟨fuel, rfl⟩ := Nat.exists_eq_succ_of_ne_zero (Nat.ne_zero_of_lt enough)
      rw [List.flatMap_nil, List.nil_append, List.append_nil, readString]
  | cons x text ih =>
      obtain ⟨fuel, rfl⟩ := Nat.exists_eq_succ_of_ne_zero (Nat.ne_zero_of_lt enough)
      have some : 0 < (Json.escape x).length := by
        rw [Json.escape]
        split_ifs <;> simp
      rw [List.flatMap_cons, List.length_append] at enough
      rw [List.flatMap_cons, List.append_assoc, readString_escape, ih _ _ (by omega)]
      simp

/-! ## Values that are read back -/

/-- A number that the host prints as a numeral and reads back. -/
structure Reads (format : NumberFormat) (n : JsNumber) : Prop where
  finite : n.isFinite = true
  numeral : numeral.test (format.print n) = true
  chars : ∀ x ∈ (format.print n).toList, isNumeral x = true
  read : format.read (format.print n).toList = n

/-- Safe whole numbers are read back where they are printed in decimal. -/
theorem reads_nat (decimal : format.Decimal) {n : Nat} (safe : n ≤ JsNumber.maxSafe) :
    Reads format (.finite n) := by
  have digits : ∀ x ∈ (toString n).toList, Regex.isDigit x = true := by
    cases n with
    | zero =>
        have zero : (toString 0).toList = ['0'] := by decide
        rw [zero, List.forall_mem_singleton]
        decide
    | succ n => exact isDigit_toString (Nat.succ_pos n)
  refine ⟨rfl, ?_, ?_, ?_⟩
  · rw [decimal.print n safe]
    cases n with
    | zero => decide
    | succ n => exact numeral_toString (Nat.succ_pos n)
  · rw [decimal.print n safe]
    exact fun x member => by simp [isNumeral, digits x member]
  · rw [decimal.print n safe, decimal.read n safe]

mutual
/-- No object of the value has a key twice, and its numbers are read back. -/
def Readable (format : NumberFormat) : Json → Prop
  | .null => True
  | .bool _ => True
  | .num n => Reads format n
  | .str _ => True
  | .arr items => ReadableItems format items
  | .obj fields => (fields.map (·.1)).Nodup ∧ ReadableFields format fields

def ReadableItems (format : NumberFormat) : List Json → Prop
  | [] => True
  | item :: rest => Readable format item ∧ ReadableItems format rest

def ReadableFields (format : NumberFormat) : List (String × Json) → Prop
  | [] => True
  | (_, value) :: rest => Readable format value ∧ ReadableFields format rest
end

theorem readableItems_iff {items : List Json} :
    ReadableItems format items ↔ ∀ item ∈ items, Readable format item := by
  induction items with
  | nil => simp [ReadableItems]
  | cons item rest ih => rw [ReadableItems, ih, List.forall_mem_cons]

theorem readableFields_iff {fields : List (String × Json)} :
    ReadableFields format fields ↔ ∀ field ∈ fields, Readable format field.2 := by
  induction fields with
  | nil => simp [ReadableFields]
  | cons field rest ih => rw [ReadableFields, ih, List.forall_mem_cons]

@[simp] theorem readable_num {n : JsNumber} : Readable format (.num n) ↔ Reads format n := by
  rw [Readable]

@[simp] theorem readable_str (text : String) : Readable format (.str text) := by
  rw [Readable]
  trivial

/-- The printed text of a value. -/
def valueText (format : NumberFormat) (value : Json) : List Char :=
  (Json.stringify format.print value).toList

theorem quote_toList (text : String) :
    (Json.quote text).toList = '"' :: text.toList.flatMap Json.escape ++ ['"'] := by
  rw [Json.quote, String.toList_ofList]

/-- A member of an object. -/
def memberText (format : NumberFormat) (field : String × Json) : List Char :=
  (Json.quote field.1).toList ++ ':' :: valueText format field.2

theorem valueText_null : valueText format .null = ['n', 'u', 'l', 'l'] := by
  rw [valueText, Json.stringify]
  rfl

theorem valueText_true : valueText format (.bool true) = ['t', 'r', 'u', 'e'] := by
  rw [valueText, Json.stringify]
  rfl

theorem valueText_false : valueText format (.bool false) = ['f', 'a', 'l', 's', 'e'] := by
  rw [valueText, Json.stringify]
  rfl

theorem valueText_num {n : JsNumber} (reads : Reads format n) :
    valueText format (.num n) = (format.print n).toList := by
  rw [valueText, Json.stringify, if_pos reads.finite]

theorem valueText_str (text : String) : valueText format (.str text) =
    '"' :: text.toList.flatMap Json.escape ++ ['"'] := by
  rw [valueText, Json.stringify, quote_toList]

theorem valueText_arr (items : List Json) : valueText format (.arr items) =
    '[' :: [','].intercalate (items.map (valueText format)) ++ [']'] := by
  have texts : (Json.stringifyItems format.print items).map String.toList =
      items.map (valueText format) := by
    induction items with
    | nil => rfl
    | cons item rest ih => rw [Json.stringifyItems, List.map_cons, ih, List.map_cons, valueText]
  rw [valueText, Json.stringify, Json.arrayText, String.toList_append, String.toList_append,
    String.toList_intercalate, texts]
  rfl

theorem valueText_obj (fields : List (String × Json)) : valueText format (.obj fields) =
    '\x7b' :: [','].intercalate (fields.map (memberText format)) ++ ['\x7d'] := by
  have texts : ((Json.stringifyFields format.print fields).map fun m =>
      Json.quote m.1 ++ ":" ++ m.2).map String.toList = fields.map (memberText format) := by
    induction fields with
    | nil => rfl
    | cons field rest ih =>
        rw [Json.stringifyFields, List.map_cons, List.map_cons, ih, List.map_cons, memberText,
          String.toList_append, String.toList_append, valueText, List.append_assoc]
        rfl
  rw [valueText, Json.stringify, Json.objectText, String.toList_append, String.toList_append,
    String.toList_intercalate, texts]
  rfl

/-- The text of a value starts with a character that is neither blank nor closes an array. -/
theorem valueText_head {value : Json} (readable : Readable format value) :
    ∃ x more, valueText format value = x :: more ∧ skip (x :: more) = x :: more ∧ x ≠ ']' := by
  have solid {x : Char} {more : List Char}
      (plain : (x == ' ' || x == '\t' || x == '\n' || x == '\r') = false) :
      skip (x :: more) = x :: more := List.dropWhile_cons_of_neg (by simpa using plain)
  cases value with
  | null => exact ⟨'n', ['u', 'l', 'l'], valueText_null, rfl, by decide⟩
  | bool flag =>
      cases flag with
      | false => exact ⟨'f', ['a', 'l', 's', 'e'], valueText_false, rfl, by decide⟩
      | true => exact ⟨'t', ['r', 'u', 'e'], valueText_true, rfl, by decide⟩
  | num n =>
      have reads : Reads format n := by simpa [Readable] using readable
      cases text : (format.print n).toList with
      | nil =>
          have none : numeral.test "" = false := by decide
          have empty := reads.numeral
          rw [String.toList_eq_nil_iff.mp text, none] at empty
          cases empty
      | cons x more =>
          have numeral := reads.chars x (by simp [text])
          refine ⟨x, more, (valueText_num reads).trans text, solid ?_, ?_⟩
          · rw [Bool.eq_false_iff]
            intro blank
            simp only [Bool.or_eq_true, beq_iff_eq, or_assoc] at blank
            obtain rfl | rfl | rfl | rfl := blank
            all_goals exact absurd numeral (by decide)
          · rintro rfl
            exact absurd numeral (by decide)
  | str text => exact ⟨'"', _, valueText_str text, solid (by decide), by decide⟩
  | arr items => exact ⟨'[', _, valueText_arr items, solid (by decide), by decide⟩
  | obj fields => exact ⟨'\x7b', _, valueText_obj fields, solid (by decide), by decide⟩

/-- What follows a value: nothing, or a character that no numeral has. -/
def Stops (rest : List Char) : Prop := ∀ x ∈ rest.head?, isNumeral x = false

/-! ## Reading what was printed -/

theorem insert_fresh {key : String} {value : Json} {fields : List (String × Json)}
    (fresh : key ∉ fields.map (·.1)) : insert key value fields = fields ++ [(key, value)] := by
  induction fields with
  | nil => rfl
  | cons field rest ih =>
      rw [List.map_cons, List.mem_cons, not_or] at fresh
      obtain ⟨k, v⟩ := field
      rw [insert, if_neg (Ne.symm fresh.1), ih fresh.2, List.cons_append]

theorem stops_cons {x : Char} {rest : List Char} (stop : isNumeral x = false) :
    Stops (x :: rest) := by
  intro y member
  obtain rfl := Option.some.inj member
  exact stop

/-- Whether a text starts with a blank is decided by its first character. -/
theorem skip_cons {x : Char} {more tail : List Char} (solid : skip (x :: more) = x :: more) :
    skip (x :: tail) = x :: tail := by
  apply List.dropWhile_cons_of_neg
  intro blank
  have dropped : skip (x :: more) = skip more := List.dropWhile_cons_of_pos blank
  have shorter := congrArg List.length (dropped.symm.trans solid)
  have bound : (skip more).length ≤ more.length := (List.dropWhile_sublist _).length_le
  rw [List.length_cons] at shorter
  omega

theorem intercalate_head {x : Char} {more : List Char} {first : List Char}
    {rest : List (List Char)} (head : first = x :: more) :
    ∃ tail, [','].intercalate (first :: rest) = x :: tail := by
  cases rest with
  | nil => exact ⟨more, by simpa using head⟩
  | cons next rest =>
      exact ⟨_, by rw [List.intercalate_cons_cons, head, List.cons_append, List.cons_append]⟩

/-- An array with items is read item by item. -/
theorem readValue_items {x : Char} {more : List Char} (solid : skip (x :: more) = x :: more)
    (item : x ≠ ']') (fuel : Nat) : readValue format (fuel + 1) ('[' :: x :: more) =
      (readItems format fuel [] (x :: more)).map fun r => (.arr r.1, r.2) := by
  have opened : skip ('[' :: x :: more) = '[' :: x :: more := rfl
  rw [readValue, opened]
  simp only [solid]
  split
  · next same => exact absurd (List.cons.inj same).1 item
  · rfl

/-- The value in front of a separator. -/
theorem readItems_value {item : Json} {text rest : List Char} {fuel : Nat} (done : List Json)
    (read : readValue format fuel (text ++ rest) = some (item, rest)) :
    readItems format (fuel + 1) done (text ++ rest) =
      match skip rest with
      | ',' :: more => readItems format fuel (done ++ [item]) more
      | ']' :: more => some (done ++ [item], more)
      | _ => none := by
  rw [readItems]
  simp only [read] <;> rfl

/-- The member in front of a separator. -/
theorem readMembers_member {field : String × Json} {rest : List Char} {fuel : Nat}
    {done : List (String × Json)}
    (enough : (field.1.toList.flatMap Json.escape).length < fuel)
    (fresh : field.1 ∉ done.map (·.1))
    (read : readValue format fuel (valueText format field.2 ++ rest) = some (field.2, rest)) :
    readMembers format (fuel + 1) done (memberText format field ++ rest) =
      match skip rest with
      | ',' :: more => readMembers format fuel (done ++ [field]) more
      | '\x7d' :: more => some (done ++ [field], more)
      | _ => none := by
  have text : memberText format field ++ rest = '"' :: (field.1.toList.flatMap Json.escape ++
      '"' :: ':' :: (valueText format field.2 ++ rest)) := by
    rw [memberText, quote_toList]
    simp
  have opened (tail : List Char) : skip ('"' :: tail) = '"' :: tail := rfl
  have colon (tail : List Char) : skip (':' :: tail) = ':' :: tail := rfl
  rw [text, readMembers, opened]
  simp only [readString_quote _ fuel [] _ enough, colon, read, List.reverse_nil, List.nil_append,
    String.ofList_toList, insert_fresh fresh] <;> rfl

/-- The value is read from its text, whatever stands behind it. -/
def ReadsBack (format : NumberFormat) (value : Json) : Prop :=
  ∀ rest, Stops rest → ∀ fuel, (valueText format value).length < fuel →
    readValue format fuel (valueText format value ++ rest) = some (value, rest)

theorem readItems_texts {items : List Json} (back : ∀ item ∈ items, ReadsBack format item)
    (filled : items ≠ []) {done : List Json} {rest : List Char} {fuel : Nat}
    (enough : ([','].intercalate (items.map (valueText format))).length + 1 < fuel) :
    readItems format fuel done
        ([','].intercalate (items.map (valueText format)) ++ ']' :: rest) =
      some (done ++ items, rest) := by
  induction items generalizing done fuel with
  | nil => exact absurd rfl filled
  | cons item more ih =>
      obtain ⟨first, later⟩ := List.forall_mem_cons.mp back
      obtain ⟨fuel, rfl⟩ := Nat.exists_eq_succ_of_ne_zero (Nat.ne_zero_of_lt enough)
      cases more with
      | nil =>
          rw [List.map_singleton, List.intercalate_singleton] at enough ⊢
          rw [readItems_value done (first _ (stops_cons (by decide)) _ (by omega))]
          rfl
      | cons next more =>
          rw [List.map_cons, List.map_cons, List.intercalate_cons_cons, ← List.map_cons] at enough ⊢
          simp only [List.length_append, List.length_singleton] at enough
          rw [List.append_assoc, List.append_assoc, List.singleton_append,
            readItems_value done (first _ (stops_cons (by decide)) _ (by omega))]
          have tail := @ih later (List.cons_ne_nil _ _) (done ++ [item]) fuel (by omega)
          rw [List.append_assoc, List.singleton_append] at tail
          exact tail

theorem readMembers_texts {fields : List (String × Json)}
    (back : ∀ field ∈ fields, ReadsBack format field.2) (filled : fields ≠ [])
    {done : List (String × Json)} {rest : List Char} {fuel : Nat}
    (distinct : ((done ++ fields).map (·.1)).Nodup)
    (enough : ([','].intercalate (fields.map (memberText format))).length + 1 < fuel) :
    readMembers format fuel done
        ([','].intercalate (fields.map (memberText format)) ++ '\x7d' :: rest) =
      some (done ++ fields, rest) := by
  induction fields generalizing done fuel with
  | nil => exact absurd rfl filled
  | cons field more ih =>
      obtain ⟨first, later⟩ := List.forall_mem_cons.mp back
      obtain ⟨fuel, rfl⟩ := Nat.exists_eq_succ_of_ne_zero (Nat.ne_zero_of_lt enough)
      have fresh : field.1 ∉ done.map (·.1) := by
        rw [List.map_append, List.map_cons, List.nodup_append] at distinct
        exact fun member => distinct.2.2 _ member _ List.mem_cons_self rfl
      have length : (memberText format field).length =
          (field.1.toList.flatMap Json.escape).length + (valueText format field.2).length + 3 := by
        rw [memberText, quote_toList]
        simp only [List.length_append, List.length_cons, List.length_nil]
        omega
      cases more with
      | nil =>
          rw [List.map_singleton, List.intercalate_singleton] at enough ⊢
          rw [readMembers_member (by omega) fresh (first _ (stops_cons (by decide)) _ (by omega))]
          rfl
      | cons next more =>
          rw [List.map_cons, List.map_cons, List.intercalate_cons_cons, ← List.map_cons] at enough ⊢
          simp only [List.length_append, List.length_singleton] at enough
          rw [List.append_assoc, List.append_assoc, List.singleton_append,
            readMembers_member (by omega) fresh (first _ (stops_cons (by decide)) _ (by omega))]
          have shift : (done ++ [field] ++ next :: more) = done ++ field :: next :: more := by
            rw [List.append_assoc, List.singleton_append]
          have tail := @ih later (List.cons_ne_nil _ _) (done ++ [field]) fuel
            (shift ▸ distinct) (by omega)
          rw [shift] at tail
          exact tail

theorem readsBack_num {n : JsNumber} (reads : Reads format n) : ReadsBack format (.num n) := by
  intro rest stops fuel enough
  obtain ⟨fuel, rfl⟩ := Nat.exists_eq_succ_of_ne_zero (Nat.ne_zero_of_lt enough)
  have filled : (format.print n).toList ≠ [] := by
    obtain ⟨x, more, text, -⟩ := valueText_head (show Readable format (.num n) by rwa [Readable])
    rw [← valueText_num reads, text]
    exact List.cons_ne_nil x more
  rw [valueText_num reads, readValue_numeral format reads.chars stops
    (fun empty => absurd empty filled), String.ofList_toList, if_pos reads.numeral, reads.read]

theorem readsBack_str (text : String) : ReadsBack format (.str text) := by
  intro rest stops fuel enough
  obtain ⟨fuel, rfl⟩ := Nat.exists_eq_succ_of_ne_zero (Nat.ne_zero_of_lt enough)
  have opened (more : List Char) : readValue format (fuel + 1) ('"' :: more) =
      (readString fuel [] more).map fun r => (.str r.1, r.2) := rfl
  rw [valueText_str, List.cons_append, List.length_cons, List.length_append] at enough
  rw [valueText_str, List.cons_append, List.cons_append, opened, List.append_assoc,
    List.singleton_append, readString_quote _ _ _ _ (by omega)]
  simp

theorem readsBack_arr {items : List Json} (readable : ∀ item ∈ items, Readable format item)
    (back : ∀ item ∈ items, ReadsBack format item) : ReadsBack format (.arr items) := by
  intro rest stops fuel enough
  obtain ⟨fuel, rfl⟩ := Nat.exists_eq_succ_of_ne_zero (Nat.ne_zero_of_lt enough)
  cases items with
  | nil =>
      rw [valueText_arr]
      rfl
  | cons item items =>
      obtain ⟨x, more, head, solid, bracket⟩ := valueText_head (readable item List.mem_cons_self)
      obtain ⟨tail, text⟩ := @intercalate_head x more _ (items.map (valueText format)) head
      rw [← List.map_cons] at text
      rw [valueText_arr, List.cons_append, List.length_cons, List.length_append] at enough
      have read := @readItems_texts format (item :: items) back (List.cons_ne_nil _ _) [] rest fuel
        (by simpa using enough)
      rw [valueText_arr, List.cons_append, List.cons_append, List.append_assoc,
        List.singleton_append]
      rw [text, List.cons_append] at read ⊢
      rw [readValue_items (skip_cons solid) bracket, read]
      rfl

theorem readsBack_obj {fields : List (String × Json)} (distinct : (fields.map (·.1)).Nodup)
    (back : ∀ field ∈ fields, ReadsBack format field.2) : ReadsBack format (.obj fields) := by
  intro rest stops fuel enough
  obtain ⟨fuel, rfl⟩ := Nat.exists_eq_succ_of_ne_zero (Nat.ne_zero_of_lt enough)
  cases fields with
  | nil =>
      rw [valueText_obj]
      rfl
  | cons field fields =>
      have head : memberText format field = '"' :: (field.1.toList.flatMap Json.escape ++
          '"' :: ':' :: valueText format field.2) := by
        rw [memberText, quote_toList]
        simp
      obtain ⟨tail, text⟩ := @intercalate_head '"' _ _ (fields.map (memberText format)) head
      rw [← List.map_cons] at text
      rw [valueText_obj, List.cons_append, List.length_cons, List.length_append] at enough
      have read := @readMembers_texts format (field :: fields) back (List.cons_ne_nil _ _) [] rest
        fuel distinct (by simpa using enough)
      have opened (more : List Char) : readValue format (fuel + 1) ('\x7b' :: '"' :: more) =
          (readMembers format fuel [] ('"' :: more)).map fun r => (.obj r.1, r.2) := rfl
      rw [valueText_obj, List.cons_append, List.cons_append, List.append_assoc,
        List.singleton_append]
      rw [text, List.cons_append] at read ⊢
      rw [opened, read]
      rfl

/-- A readable value is read back from its text. -/
theorem readsBack : ∀ value : Json, Readable format value → ReadsBack format value
  | .null, _ => by
      intro rest stops fuel enough
      obtain ⟨fuel, rfl⟩ := Nat.exists_eq_succ_of_ne_zero (Nat.ne_zero_of_lt enough)
      rw [valueText_null]
      rfl
  | .bool true, _ => by
      intro rest stops fuel enough
      obtain ⟨fuel, rfl⟩ := Nat.exists_eq_succ_of_ne_zero (Nat.ne_zero_of_lt enough)
      rw [valueText_true]
      rfl
  | .bool false, _ => by
      intro rest stops fuel enough
      obtain ⟨fuel, rfl⟩ := Nat.exists_eq_succ_of_ne_zero (Nat.ne_zero_of_lt enough)
      rw [valueText_false]
      rfl
  | .num n, readable => readsBack_num (by rwa [Readable] at readable)
  | .str text, _ => readsBack_str text
  | .arr items, readable => by
      rw [Readable, readableItems_iff] at readable
      exact readsBack_arr readable fun item member => readsBack item (readable item member)
  | .obj fields, readable => by
      rw [Readable, readableFields_iff] at readable
      exact readsBack_obj readable.1 fun field member =>
        readsBack field.2 (readable.2 field member)
termination_by value => sizeOf value
decreasing_by
  · have := List.sizeOf_lt_of_mem member
    simp
    omega
  · have := List.sizeOf_lt_of_mem member
    have : sizeOf field.2 < sizeOf field := by
      obtain ⟨key, value⟩ := field
      show sizeOf value < sizeOf (key, value)
      rw [Prod.mk.sizeOf_spec]
      omega
    simp
    omega

/-- `JSON.parse` inverts `JSON.stringify` on readable values. -/
theorem parse_stringify {value : Json} (readable : Readable format value) :
    parse format (Json.stringify format.print value).toList = some value := by
  have read := readsBack value readable [] (by simp [Stops]) _
    (Nat.lt_succ_self (valueText format value).length)
  rw [List.append_nil] at read
  rw [parse, show (Json.stringify format.print value).toList = valueText format value from rfl, read]
  rfl

/-- A line of a file holds one value. -/
theorem parse_line {value : Json} (readable : Readable format value) :
    parse format ((Json.stringify format.print value).toList ++ ['\n']) = some value := by
  have stops : Stops ['\n'] := by
    intro x mem
    obtain rfl : '\n' = x := by simpa using mem
    decide
  have read := readsBack value readable ['\n'] stops
    ((valueText format value ++ ['\n']).length + 1)
    (by rw [List.length_append]; omega)
  rw [parse, show (Json.stringify format.print value).toList = valueText format value from rfl, read]
  rfl

end JsonText

end AdCoder.Foundation
