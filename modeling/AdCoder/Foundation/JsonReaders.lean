import AdCoder.Foundation.Json
import AdCoder.Foundation.Runs

/-!
# Strict readers of JSON objects

A writer lists the properties of an object, and a property that is undefined is
not written. A strict reader refuses unknown properties and reads each of the
known ones. A reader is exact on what a writer wrote when it returns the written
value just in case the value meets the reader's bounds.
-/

namespace AdCoder.Foundation

namespace Json

/-- The members that `JSON.stringify` writes. -/
def fields : List (String × Option Json) → List (String × Json)
  | [] => []
  | (_, none) :: rest => fields rest
  | (key, some value) :: rest => (key, value) :: fields rest

/-- An object literal; a property may be undefined. -/
def object (properties : List (String × Option Json)) : Json := .obj (fields properties)

/-- A number that is not finite is written as `null`. -/
def ofNumber (n : JsNumber) : Json := if n.isFinite then .num n else .null

def ofNat (n : Nat) : Json := .num (.finite n)

@[simp] theorem lookup_fields_nil (name : String) : lookup name (fields []) = none := rfl

@[simp] theorem lookup_fields_cons (name key : String) (value : Option Json)
    (rest : List (String × Option Json)) :
    lookup name (fields ((key, value) :: rest)) =
      if key = name then value.or (lookup name (fields rest)) else lookup name (fields rest) := by
  cases value with
  | none => simp [fields]
  | some value => simp [fields]

theorem mem_fields {properties : List (String × Option Json)} {key : String} {value : Json} :
    (key, value) ∈ fields properties ↔ (key, some value) ∈ properties := by
  induction properties with
  | nil => simp [fields]
  | cons property rest ih =>
      obtain ⟨name, held⟩ := property
      cases held with
      | none => simp [fields, ih]
      | some held => simp [fields, ih]

end Json

/-! ## Readers -/

namespace JsonReader

variable {α β : Type}

/-- A reader of a property, which may be undefined. -/
abbrev Reader (α : Type) := Option Json → Except String α

/-- `strictObject`. -/
def strictObject (keys : List String) : Json → Except String (List (String × Json))
  | .obj fields =>
      if fields.all fun field => keys.contains field.1 then .ok fields
      else .error "record contains an unknown field"
  | _ => .error "record must be an object"

def optional (read : Json → Except String α) : Reader (Option α)
  | none => .ok none
  | some value => (read value).map some

/-- A property that has to be there: the readers refuse `null` as they refuse a property
that is undefined. -/
def property (name : String) (fields : List (String × Json)) : Json :=
  (Json.lookup name fields).getD .null

/-- One of the listed values, by its text. -/
def enumValue (values : List α) (text : α → String) : Json → Except String α
  | .str s =>
      match values.find? fun x => text x == s with
      | some x => .ok x
      | none => .error "record contains an invalid enum"
  | _ => .error "record contains an invalid enum"

def safeInteger (minimum : Nat) : Json → Except String Nat
  | .num (.finite q) =>
      if (JsNumber.finite q).isSafeInteger = true ∧ (minimum : Rat) ≤ q then .ok q.num.toNat
      else .error "record contains an invalid integer"
  | _ => .error "record contains an invalid integer"

/-- A finite number, negative or not. -/
def signedNumber : Json → Except String JsNumber
  | .num n =>
      if n.isFinite then .ok n else .error "record contains an invalid number"
  | _ => .error "record contains an invalid number"

def finiteNumber : Json → Except String JsNumber
  | .num n =>
      if n.isFinite = true ∧ n.atLeast 0 = true then .ok n
      else .error "record contains an invalid number"
  | _ => .error "record contains an invalid number"

/-- `finiteNumber`, as the number that it is. -/
def finiteRat (value : Json) : Except String Rat :=
  match finiteNumber value with
  | .ok (.finite q) => .ok q
  | _ => .error "record contains an invalid number"

def text (accepts : String → Bool) (error : String) : Json → Except String String
  | .str s => if accepts s then .ok s else .error error
  | _ => .error error

def boolean (error : String) : Json → Except String Bool
  | .bool b => .ok b
  | _ => .error error

def array (error : String) (read : Json → Except String α) : Json → Except String (List α)
  | .arr items => items.mapM read
  | _ => .error error

/-- A property that is written, found past the ones before it. -/
@[simp] theorem property_fields_cons (name key : String) (value : Option Json)
    (rest : List (String × Option Json)) :
    property name (Json.fields ((key, value) :: rest)) =
      if key = name then value.getD (property name (Json.fields rest))
      else property name (Json.fields rest) := by
  cases value with
  | none => simp [property]
  | some value => by_cases same : key = name <;> simp [property, same]

/-! ## Exact readers -/

/-- The computation returns the value just in case the condition holds. -/
def Yields (x : Except String α) (fits : Prop) (a : α) : Prop := ∀ b, x = .ok b ↔ fits ∧ b = a

namespace Yields

variable {x : Except String α} {fits : Prop} {a : α}

theorem of_ok : Yields (.ok a : Except String α) True a := by
  intro b
  simp [eq_comm]

theorem of_pure : Yields (pure a : Except String α) True a := of_ok

theorem of_iff (h : Yields x fits a) {fits' : Prop} (same : fits ↔ fits') : Yields x fits' a :=
  fun b => (h b).trans (and_congr_left fun _ => same)

theorem bind (h : Yields x fits a) {f : α → Except String β} {fits' : Prop} {b : β}
    (rest : Yields (f a) fits' b) : Yields (x >>= f) (fits ∧ fits') b := by
  intro c
  rw [bind_eq_ok]
  constructor
  · rintro ⟨a', read, later⟩
    obtain ⟨ok, rfl⟩ := (h a').mp read
    exact ⟨⟨ok, ((rest c).mp later).1⟩, ((rest c).mp later).2⟩
  · rintro ⟨⟨ok, ok'⟩, rfl⟩
    exact ⟨a, (h a).mpr ⟨ok, rfl⟩, (rest c).mpr ⟨ok', rfl⟩⟩

theorem eq_ok (h : Yields x fits a) (ok : fits) : x = .ok a := (h a).mpr ⟨ok, rfl⟩

theorem map (h : Yields x fits a) (f : α → β) : Yields (x.map f) fits (f a) := by
  intro b
  rw [map_eq_ok]
  constructor
  · rintro ⟨a', read, rfl⟩
    obtain ⟨ok, rfl⟩ := (h a').mp read
    exact ⟨ok, rfl⟩
  · rintro ⟨ok, rfl⟩
    exact ⟨a, h.eq_ok ok, rfl⟩

end Yields

theorem yields_require (check : Bool) (error : String) :
    Yields (require check error) (check = true) () := by
  intro u
  simp

theorem yields_strictObject {keys : List String} {properties : List (String × Option Json)}
    (known : ∀ property ∈ properties, property.1 ∈ keys) :
    Yields (strictObject keys (Json.object properties)) True (Json.fields properties) := by
  have all : (Json.fields properties).all (fun field => keys.contains field.1) = true := by
    rw [List.all_eq_true]
    rintro ⟨key, value⟩ mem
    simpa using known _ (Json.mem_fields.mp mem)
  intro b
  rw [Json.object, strictObject, if_pos all]
  simp [eq_comm]

theorem yields_optional {read : Json → Except String α} {encode : α → Json} {fits : α → Prop}
    (exact_at : ∀ a, Yields (read (encode a)) (fits a) a) (a : Option α) :
    Yields (optional read (a.map encode)) (∀ x, a = some x → fits x) a := by
  cases a with
  | none =>
      refine Yields.of_ok.of_iff ?_
      simp
  | some x =>
      refine ((exact_at x).map some).of_iff ?_
      simp

theorem yields_enumValue {values : List α} {text : α → String}
    (injective : ∀ x y, text x = text y → x = y) (a : α) :
    Yields (enumValue values text (.str (text a))) (a ∈ values) a := by
  intro b
  simp only [enumValue]
  cases found : values.find? (fun x => text x == text a) with
  | none =>
      have absent : a ∉ values := fun mem => by
        simpa using List.find?_eq_none.mp found a mem
      simp [absent]
  | some x =>
      have same : x = a := injective x a (by simpa using List.find?_some found)
      have mem : a ∈ values := same ▸ List.mem_of_find?_eq_some found
      simp [mem, same, eq_comm]

theorem isSafeInteger_ofNat (n : Nat) :
    (JsNumber.finite n).isSafeInteger = true ↔ n ≤ JsNumber.maxSafe := by
  simp only [JsNumber.isSafeInteger, Rat.den_natCast, beq_self_eq_true, Bool.true_and,
    Rat.num_natCast, Int.natAbs_natCast]
  exact decide_eq_true_iff

theorem yields_safeInteger (minimum n : Nat) :
    Yields (safeInteger minimum (Json.ofNat n)) (minimum ≤ n ∧ n ≤ JsNumber.maxSafe) n := by
  intro b
  have bounds : ((JsNumber.finite (n : Rat)).isSafeInteger = true ∧ (minimum : Rat) ≤ n) ↔
      minimum ≤ n ∧ n ≤ JsNumber.maxSafe := by
    rw [isSafeInteger_ofNat, Rat.natCast_le_natCast, and_comm]
  simp only [safeInteger, Json.ofNat, bounds]
  split
  · rename_i ok
    simp [ok, eq_comm]
  · rename_i no
    simp [no]

theorem yields_signedNumber (n : JsNumber) :
    Yields (signedNumber (Json.ofNumber n)) (n.isFinite = true) n := by
  intro b
  cases finite : n.isFinite <;> simp [signedNumber, Json.ofNumber, finite, eq_comm]

theorem yields_finiteNumber (n : JsNumber) :
    Yields (finiteNumber (Json.ofNumber n)) (n.isFinite = true ∧ n.atLeast 0 = true) n := by
  intro b
  cases finite : n.isFinite <;> cases least : n.atLeast 0 <;>
    simp [finiteNumber, Json.ofNumber, finite, least, eq_comm]

theorem yields_finiteRat (q : Rat) :
    Yields (finiteRat (.num (.finite q))) (0 ≤ q) q := by
  intro b
  by_cases least : 0 ≤ q
  · have ok : finiteNumber (.num (.finite q)) = .ok (.finite q) :=
      (yields_finiteNumber (.finite q)).eq_ok ⟨rfl, by simpa [JsNumber.atLeast] using least⟩
    simp [finiteRat, ok, least, eq_comm]
  · have fails : finiteNumber (.num (.finite q)) =
        .error "record contains an invalid number" := by
      simp [finiteNumber, JsNumber.atLeast, least]
    simp [finiteRat, fails, least]

theorem yields_text (accepts : String → Bool) (error s : String) :
    Yields (text accepts error (.str s)) (accepts s = true) s := by
  intro b
  cases ok : accepts s <;> simp [text, ok, eq_comm]

theorem yields_boolean (error : String) (flag : Bool) :
    Yields (boolean error (.bool flag)) True flag := by
  intro b
  simp [boolean, eq_comm]

theorem yields_array {read : Json → Except String α} {encode : α → Json} {fits : α → Prop}
    (exact_at : ∀ a, Yields (read (encode a)) (fits a) a) (error : String) (items : List α) :
    Yields (array error read (.arr (items.map encode))) (∀ a ∈ items, fits a) items := by
  simp only [array]
  induction items with
  | nil =>
      intro b
      simp [pure, Except.pure, eq_comm]
  | cons a rest ih =>
      rw [List.map_cons, List.mapM_cons]
      apply Yields.of_iff
      · apply Yields.bind (exact_at a)
        apply Yields.bind ih
        exact .of_pure
      · simp

end JsonReader

end AdCoder.Foundation
