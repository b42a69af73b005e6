import AdCoder.Foundation.JsonRoundTrip
import AdCoder.Foundation.JsonTokens

/-!
# Parts of a printed object

A printed value has no line break. The first part of a printed object, short of
the whole, leaves a brace open, so it is not read as an object.
-/

namespace AdCoder.Foundation.JsonText

/-! ## Lines -/

theorem break_notMem_escape (x : Char) : '\n' ∉ Json.escape x := by
  have digit (n : Nat) : Json.hexDigit n ≠ '\n' := by
    intro same
    have among : Json.hexDigit n ∈ "0123456789abcdef".toList ∨ Json.hexDigit n = '0' := by
      rw [Json.hexDigit, List.getD_eq_getElem?_getD]
      cases found : "0123456789abcdef".toList[n]? with
      | none => exact .inr rfl
      | some digit => exact .inl (List.mem_of_getElem? found)
    rw [same] at among
    exact absurd among (by decide)
  unfold Json.escape
  split_ifs with quote backslash
  all_goals simp_all [eq_comm]

theorem break_notMem_quote (text : String) : '\n' ∉ (Json.quote text).toList := by
  intro member
  rw [quote_toList] at member
  have inside : '\n' ∈ text.toList.flatMap Json.escape := by simpa using member
  obtain ⟨x, -, escaped⟩ := List.mem_flatMap.mp inside
  exact break_notMem_escape x escaped

section Lines

variable {format : NumberFormat}

theorem break_notMem_joined {parts : List (List Char)} (free : ∀ part ∈ parts, '\n' ∉ part) :
    '\n' ∉ [','].intercalate parts := by
  induction parts with
  | nil => simp
  | cons part more ih =>
      have later := ih fun next member => free next (List.mem_cons_of_mem part member)
      cases more with
      | nil => simpa using free part List.mem_cons_self
      | cons next more =>
          rw [List.intercalate_cons_cons]
          simp [free part List.mem_cons_self, later]

/-- A printed value is one line. -/
theorem break_notMem_valueText : ∀ value : Json, Readable format value →
    '\n' ∉ valueText format value
  | .null, _ => by rw [valueText_null]; decide
  | .bool true, _ => by rw [valueText_true]; decide
  | .bool false, _ => by rw [valueText_false]; decide
  | .num n, readable => by
      have reads : Reads format n := by rwa [Readable] at readable
      rw [valueText_num reads]
      exact fun member => absurd (reads.chars _ member) (by decide)
  | .str text, _ => by
      rw [valueText_str, ← quote_toList]
      exact break_notMem_quote text
  | .arr items, readable => by
      rw [Readable, readableItems_iff] at readable
      have free := @break_notMem_joined (items.map (valueText format)) (by
        intro part among
        obtain ⟨item, member, rfl⟩ := List.mem_map.mp among
        exact break_notMem_valueText item (readable item member))
      rw [valueText_arr]
      simpa using free
  | .obj fields, readable => by
      rw [Readable, readableFields_iff] at readable
      have free := @break_notMem_joined (fields.map (memberText format)) (by
        intro part among
        obtain ⟨field, member, rfl⟩ := List.mem_map.mp among
        have value := break_notMem_valueText field.2 (readable.2 field member)
        rw [memberText]
        simp [break_notMem_quote field.1, value])
      rw [valueText_obj]
      simpa using free
termination_by value => sizeOf value
decreasing_by
  · have := List.sizeOf_lt_of_mem member
    simp
    omega
  · have := List.sizeOf_lt_of_mem member
    have : sizeOf field.2 < sizeOf field := by
      obtain ⟨key, value⟩ := field
      show sizeOf value < sizeOf (key, value)
      rw [Prod.mk.sizeOf_spec]
      omega
    simp
    omega

end Lines

/-! ## Open braces -/

/-- The place of a reader of tokens, and how many braces are open there. -/
def nest (state : Place × Nat) (x : Char) : Option (Place × Nat) :=
  if state.1 = .outside ∧ x = '\x7b' then some (.outside, state.2 + 1)
  else if state.1 = .outside ∧ x = '\x7d' then
    if state.2 = 0 then none else some (.outside, state.2 - 1)
  else (advance state.1 x).map fun place => (place, state.2)

def nestAfter (state : Place × Nat) (text : List Char) : Option (Place × Nat) :=
  text.foldlM nest state

section Nesting

variable {x : Char} {depth : Nat} {state last : Place × Nat} {text rest body : List Char}
  {tokens : List Token}

theorem nestAfter_append : nestAfter state (text ++ rest) =
    (nestAfter state text).bind (nestAfter · rest) :=
  List.foldlM_append

theorem nest_plain (opens : x ≠ '\x7b') (closes : x ≠ '\x7d') :
    nest state x = (advance state.1 x).map fun place => (place, state.2) := by
  rw [nest, if_neg (fun both => opens both.2), if_neg (fun both => closes both.2)]

/-- Without braces the number of open ones stays. -/
theorem nestAfter_plain (plain : ∀ x ∈ text, x ≠ '\x7b' ∧ x ≠ '\x7d')
    (after : nestAfter state text = some last) : last.2 = state.2 := by
  induction text generalizing state with
  | nil => rw [← Option.some.inj after]
  | cons x more ih =>
      obtain ⟨next, step, later⟩ := Option.bind_eq_some_iff.mp after
      obtain ⟨opens, closes⟩ := plain x List.mem_cons_self
      rw [nest_plain opens closes] at step
      obtain ⟨place, -, rfl⟩ := Option.map_eq_some_iff.mp step
      have same : last.2 = (place, state.2).2 :=
        ih (fun y among => plain y (List.mem_cons_of_mem x among)) later
      exact same

/-- A text that leads from one place to another with the same open braces, and that nowhere
closes more than it has opened. -/
structure Closed (start finish : Place) (text : List Char) : Prop where
  whole : ∀ depth, nestAfter (start, depth) text = some (finish, depth)
  part : ∀ depth front, front <+: text →
    ∃ state, nestAfter (start, depth) front = some state ∧ depth ≤ state.2

variable {start middle finish : Place}

theorem Closed.nil : Closed start start [] where
  whole _ := rfl
  part depth front ahead := by
    rw [List.prefix_nil.mp ahead]
    exact ⟨_, rfl, Nat.le_refl depth⟩

theorem Closed.append (first : Closed start middle text) (second : Closed middle finish rest) :
    Closed start finish (text ++ rest) where
  whole depth := by
    rw [nestAfter_append, first.whole, Option.bind_some, second.whole]
  part depth front ahead := by
    obtain short | long := List.prefix_or_prefix_of_prefix ahead (List.prefix_append text rest)
    · exact first.part depth front short
    · obtain ⟨more, rfl⟩ := long
      rw [nestAfter_append, first.whole, Option.bind_some]
      exact second.part depth more ((List.prefix_append_right_inj text).mp ahead)

theorem Closed.char (step : ∀ depth, nest (start, depth) x = some (finish, depth)) :
    Closed start finish [x] where
  whole depth := by
    rw [nestAfter, List.foldlM_cons, step]
    rfl
  part depth front ahead := by
    obtain rfl | ⟨more, rfl, nothing⟩ := List.prefix_cons_iff.mp ahead
    · exact ⟨_, rfl, Nat.le_refl depth⟩
    · rw [List.prefix_nil.mp nothing, nestAfter, List.foldlM_cons, step]
      exact ⟨_, rfl, Nat.le_refl depth⟩

/-- The text of a literal after its first quote. -/
theorem Closed.literal (valid : Body body) : Closed .inside .outside (body ++ ['"']) := by
  induction valid with
  | nil => exact .char fun depth => rfl
  | @plain x rest quote backslash _ ih =>
      have step : Closed .inside .inside [x] := .char fun depth => by
        simp [nest, advance, quote, backslash]
      exact step.append ih
  | @escape x rest _ ih =>
      have mark : Closed .inside .escaped ['\\'] := .char fun depth => rfl
      have next : Closed .escaped .inside [x] := .char fun depth => by simp [nest, advance]
      exact mark.append (next.append ih)

theorem Closed.token {t : Token} (valid : t.Valid) (opens : t ≠ .mark '\x7b')
    (closes : t ≠ .mark '\x7d') : Closed .outside .outside t.chars := by
  cases t with
  | mark x =>
      have mark : isMark x = true := valid
      have open' : x ≠ '\x7b' := fun same => opens (congrArg _ same)
      have close' : x ≠ '\x7d' := fun same => closes (congrArg _ same)
      refine .char fun depth => ?_
      rw [nest_plain open' close']
      simp [advance, (isMark_ne mark).1, mark]
  | literal body =>
      have quote : Closed .outside .inside ['"'] := .char fun depth => rfl
      exact quote.append (.literal valid)

theorem Closed.braces (inner : Closed .outside .outside text) :
    Closed .outside .outside ('\x7b' :: text ++ ['\x7d']) where
  whole depth := by
    rw [List.cons_append, nestAfter, List.foldlM_cons]
    change nestAfter (.outside, depth + 1) (text ++ ['\x7d']) = _
    rw [nestAfter_append, inner.whole]
    rfl
  part depth front ahead := by
    rw [List.cons_append] at ahead
    obtain rfl | ⟨front, rfl, inside⟩ := List.prefix_cons_iff.mp ahead
    · exact ⟨_, rfl, Nat.le_refl depth⟩
    · change ∃ state, nestAfter (.outside, depth + 1) front = some state ∧ depth ≤ state.2
      obtain rfl | short := List.prefix_concat_iff.mp inside
      · rw [nestAfter_append, inner.whole]
        exact ⟨_, rfl, Nat.le_refl depth⟩
      · obtain ⟨state, after, least⟩ := inner.part (depth + 1) front short
        exact ⟨state, after, by omega⟩

/-- Balanced tokens close what they open. -/
theorem Closed.balanced (balanced : Balanced tokens) :
    Closed .outside .outside (charsOf tokens) := by
  induction balanced with
  | nil => exact .nil
  | @token t valid opens closes =>
      rw [charsOf, List.flatMap_singleton]
      exact .token valid opens closes
  | append _ _ first second =>
      rw [charsOf_append]
      exact first.append second
  | braces _ ih =>
      rw [charsOf_append]
      exact .braces ih

/-- A part of an object leaves its first brace open. -/
theorem open_of_prefix (balanced : Balanced tokens)
    (ahead : text <+: '\x7b' :: charsOf tokens ++ ['\x7d']) (some' : text ≠ [])
    (short : text ≠ '\x7b' :: charsOf tokens ++ ['\x7d']) :
    ∃ state, nestAfter (.outside, 0) text = some state ∧ 0 < state.2 := by
  obtain whole | ahead := List.prefix_concat_iff.mp ahead
  · exact absurd whole short
  · obtain rfl | ⟨front, rfl, inside⟩ := List.prefix_cons_iff.mp ahead
    · exact absurd rfl some'
    · exact (Closed.balanced balanced).part 1 front inside

theorem Closed.blank (blank : ∀ x ∈ text, isBlank x = true) : Closed .outside .outside text := by
  induction text with
  | nil => exact .nil
  | cons x more ih =>
      have step : Closed .outside .outside [x] := .char fun depth => by
        have space := blank x List.mem_cons_self
        have mark : isMark x = true := by simp [isMark, space]
        rw [nest_plain]
        · simp [advance, (isMark_ne mark).1, mark]
        · rintro rfl
          cases space
        · rintro rfl
          cases space
      exact step.append (ih fun y member => blank y (List.mem_cons_of_mem x member))

/-- A text that is read as an object closes all of its braces. -/
theorem closed_of_parse {format : NumberFormat} {fields : List (String × Json)}
    (read : parse format text = some (.obj fields)) : Closed .outside .outside text := by
  obtain ⟨front, inner, back, rfl, ahead, behind, balanced⟩ := parse_object read
  exact ((Closed.blank ahead).append (Closed.braces (.balanced balanced))).append (.blank behind)

end Nesting

/-! ## Printed objects -/

section Printed

variable {format : NumberFormat} {fields : List (String × Json)} {front tail : List Char}

theorem valueText_object (readable : Readable format (.obj fields)) :
    ∃ inner, Balanced inner ∧
      valueText format (.obj fields) = '\x7b' :: charsOf inner ++ ['\x7d'] := by
  obtain ⟨front, inner, back, split, ahead, behind, balanced⟩ :=
    parse_object (parse_stringify readable)
  refine ⟨inner, balanced, ?_⟩
  change valueText format (.obj fields) = _ at split
  have first : front = [] := by
    cases front with
    | nil => rfl
    | cons x front =>
        rw [valueText_obj] at split
        obtain rfl := (List.cons.inj split).1
        exact absurd (ahead '\x7b' List.mem_cons_self) (by decide)
  have last : back = [] := by
    obtain rfl | ⟨back, y, rfl⟩ := List.eq_nil_or_concat back
    · rfl
    · rw [valueText_obj, List.concat_eq_append, ← List.append_assoc] at split
      obtain rfl := List.singleton_inj.mp (List.append_inj_right' split rfl)
      exact absurd (behind '\x7d' (by simp)) (by decide)
  rw [split, first, last, List.nil_append, List.append_nil]

/-- The first part of a printed object, even with other characters behind it, is not read as an
object. -/
theorem parse_of_prefix (readable : Readable format (.obj fields))
    (ahead : front <+: valueText format (.obj fields)) (some' : front ≠ [])
    (short : front ≠ valueText format (.obj fields))
    (plain : ∀ x ∈ tail, x ≠ '\x7b' ∧ x ≠ '\x7d') (other : List (String × Json)) :
    parse format (front ++ tail) ≠ some (.obj other) := by
  intro read
  obtain ⟨inner, balanced, text⟩ := valueText_object readable
  rw [text] at ahead short
  obtain ⟨state, after, opened⟩ := open_of_prefix balanced ahead some' short
  have whole := (closed_of_parse read).whole 0
  rw [nestAfter_append, after, Option.bind_some] at whole
  have same := nestAfter_plain plain whole
  omega

end Printed

end AdCoder.Foundation.JsonText
