import AdCoder.Foundation.Regex
import Mathlib.Data.List.TakeWhile

/-!
# What a match consumes, and matches inside a longer subject

Every end of a match is reached by consuming a prefix of the rest. A pattern
without assertions that matches a part of a subject matches the whole subject.
-/

namespace AdCoder.Foundation

/-- The cursor moved over a consumed word. -/
def Cursor.Reaches (c : Cursor) (word : List Char) (e : Cursor) : Prop :=
  c.after = word ++ e.after ∧ e.before = word.reverse ++ c.before

/-- The cursor in a subject extended on both sides. -/
def Cursor.extend (front back : List Char) (c : Cursor) : Cursor :=
  ⟨c.before ++ front, c.after ++ back⟩

namespace Cursor

theorem Reaches.refl (c : Cursor) : c.Reaches [] c := by
  constructor
  · rfl
  · rfl

theorem Reaches.trans {a b c : Cursor} {v w : List Char} (h : a.Reaches v b)
    (h' : b.Reaches w c) : a.Reaches (v ++ w) c := by
  constructor
  · rw [h.1, h'.1, List.append_assoc]
  · rw [h'.2, h.2, List.reverse_append, List.append_assoc]

end Cursor

namespace Regex

variable {p : Char → Bool} {front back : List Char} {step : Cursor → List Cursor} {greedy : Bool}
  {fuel least : Nat} {most : Option Nat} {c e : Cursor}

/-! ## Repetition -/

theorem mem_iterate_zero : e ∈ iterate step greedy 0 least most c ↔ least = 0 ∧ e = c := by
  by_cases h : least = 0
  · simp [iterate, h]
  · simp [iterate, h]

theorem mem_iterate_succ : e ∈ iterate step greedy (fuel + 1) least most c ↔
    (least = 0 ∧ e = c) ∨ (most ≠ some 0 ∧ ∃ m ∈ step c, m.after.length < c.after.length ∧
      e ∈ iterate step greedy fuel (least - 1) (most.map (· - 1)) m) := by
  have stop : e ∈ (if least = 0 then [c] else []) ↔ least = 0 ∧ e = c := by
    by_cases h : least = 0
    · simp [h]
    · simp [h]
  have more : e ∈ (if most = some 0 then [] else
      ((step c).filter fun e => e.after.length < c.after.length).flatMap
        (iterate step greedy fuel (least - 1) (most.map (· - 1)))) ↔
      most ≠ some 0 ∧ ∃ m ∈ step c, m.after.length < c.after.length ∧
        e ∈ iterate step greedy fuel (least - 1) (most.map (· - 1)) m := by
    by_cases h : most = some 0
    · simp [h]
    · simp [h, and_assoc]
  cases greedy with
  | true =>
      simp only [iterate, if_true, List.mem_append]
      rw [stop, more, or_comm]
  | false =>
      simp only [iterate, Bool.false_eq_true, if_false, List.mem_append]
      rw [stop, more]

/-- A round more than needed changes no end. -/
theorem mem_iterate_extend {step' : Cursor → List Cursor}
    (h : ∀ c e, e ∈ step c → e.extend front back ∈ step' (c.extend front back)) {fuel' : Nat}
    (le : fuel ≤ fuel') (he : e ∈ iterate step greedy fuel least most c) :
    e.extend front back ∈ iterate step' greedy fuel' least most (c.extend front back) := by
  induction fuel generalizing fuel' least most c with
  | zero =>
      obtain ⟨rfl, rfl⟩ := mem_iterate_zero.mp he
      cases fuel' with
      | zero => exact mem_iterate_zero.mpr ⟨rfl, rfl⟩
      | succ fuel' => exact mem_iterate_succ.mpr (Or.inl ⟨rfl, rfl⟩)
  | succ fuel ih =>
      obtain ⟨fuel', rfl⟩ : ∃ n, fuel' = n + 1 := ⟨fuel' - 1, by omega⟩
      apply mem_iterate_succ.mpr
      rcases mem_iterate_succ.mp he with ⟨rfl, rfl⟩ | ⟨room, m, hm, shorter, he⟩
      · exact Or.inl ⟨rfl, rfl⟩
      · refine Or.inr ⟨room, m.extend front back, h c m hm, ?_, ih (by omega) he⟩
        simp only [Cursor.extend, List.length_append]
        omega

/-! ## Consumed words -/

/-- A matcher that only moves over words whose characters all satisfy `p`. -/
def Consumes (p : Char → Bool) (step : Cursor → List Cursor) : Prop :=
  ∀ c e, e ∈ step c → ∃ word, c.Reaches word e ∧ ∀ x ∈ word, p x = true

theorem Consumes.iterate (h : Consumes p step) (greedy : Bool) (fuel least : Nat)
    (most : Option Nat) : Consumes p (iterate step greedy fuel least most) := by
  induction fuel generalizing least most with
  | zero =>
      intro c e he
      obtain ⟨_, rfl⟩ := mem_iterate_zero.mp he
      exact ⟨[], .refl _, by simp⟩
  | succ fuel ih =>
      intro c e he
      rcases mem_iterate_succ.mp he with ⟨_, rfl⟩ | ⟨_, m, hm, _, he⟩
      · exact ⟨[], .refl _, by simp⟩
      · obtain ⟨v, hv, allv⟩ := h c m hm
        obtain ⟨w, hw, allw⟩ := ih _ _ m e he
        refine ⟨v ++ w, hv.trans hw, ?_⟩
        intro x hx
        exact (List.mem_append.mp hx).elim (allv x) (allw x)

theorem consumes_one (accepts : Char → Bool) : Consumes accepts (Regex.one accepts).ends := by
  intro c e he
  simp only [ends] at he
  split at he
  · cases he
  · next x rest hafter =>
      split_ifs at he with hx
      · obtain rfl := List.mem_singleton.mp he
        exact ⟨[x], ⟨by simp [hafter], rfl⟩, by simpa using hx⟩
      · cases he

/-- A pattern whose classes all lie in `p`. -/
def Within (p : Char → Bool) : Regex → Prop
  | .empty => True
  | .one accepts => ∀ x, accepts x = true → p x = true
  | .assert _ => True
  | .seq first second => first.Within p ∧ second.Within p
  | .alt first second => first.Within p ∧ second.Within p
  | .rep _ _ _ body => body.Within p
  | .ahead _ => True

theorem Within.consumes {r : Regex} (within : r.Within p) : Consumes p r.ends := by
  induction r with
  | empty =>
      intro c e he
      obtain rfl := List.mem_singleton.mp he
      exact ⟨[], .refl _, by simp⟩
  | one accepts =>
      intro c e he
      obtain ⟨word, reaches, all⟩ := consumes_one accepts c e he
      exact ⟨word, reaches, fun x hx => within x (all x hx)⟩
  | assert holds =>
      intro c e he
      simp only [ends] at he
      split_ifs at he
      · obtain rfl := List.mem_singleton.mp he
        exact ⟨[], .refl _, by simp⟩
      · cases he
  | seq first second ih ih' =>
      intro c e he
      obtain ⟨m, hm, he⟩ := List.mem_flatMap.mp he
      obtain ⟨v, hv, allv⟩ := ih within.1 c m hm
      obtain ⟨w, hw, allw⟩ := ih' within.2 m e he
      refine ⟨v ++ w, hv.trans hw, ?_⟩
      intro x hx
      exact (List.mem_append.mp hx).elim (allv x) (allw x)
  | alt first second ih ih' =>
      intro c e he
      exact (List.mem_append.mp he).elim (ih within.1 c e) (ih' within.2 c e)
  | rep greedy least most body ih =>
      intro c e he
      exact (ih within).iterate greedy _ _ _ c e he
  | ahead body ih =>
      intro c e he
      simp only [ends] at he
      split_ifs at he
      · cases he
      · obtain rfl := List.mem_singleton.mp he
        exact ⟨[], .refl _, by simp⟩

theorem within_true (r : Regex) : r.Within fun _ => true := by
  induction r with
  | empty | assert | ahead => trivial
  | one accepts => exact fun _ _ => rfl
  | seq first second ih ih' => exact ⟨ih, ih'⟩
  | alt first second ih ih' => exact ⟨ih, ih'⟩
  | rep greedy least most body ih => exact ih

/-- Every match moves over a word. -/
theorem consumes_ends (r : Regex) : Consumes (fun _ => true) r.ends := (within_true r).consumes

theorem within_literal {text : String} (all : ∀ x ∈ text.toList, p x = true) :
    (literal text).Within p := by
  unfold literal
  generalize text.toList = word at all
  induction word with
  | nil => trivial
  | cons x rest ih =>
      constructor
      · intro y same
        rw [beq_iff_eq.mp same]
        exact all x List.mem_cons_self
      · exact ih fun y later => all y (List.mem_cons_of_mem x later)

/-- A fixed text consumes itself. -/
theorem reaches_literal {text : String} (he : e ∈ (literal text).ends c) :
    c.Reaches text.toList e := by
  unfold literal at he
  generalize text.toList = word at he
  induction word generalizing c with
  | nil =>
      obtain rfl := List.mem_singleton.mp he
      exact .refl _
  | cons x rest ih =>
      obtain ⟨m, hm, he⟩ := List.mem_flatMap.mp he
      have one : c.Reaches [x] m := by
        simp only [ends] at hm
        split at hm
        · cases hm
        · next y more hafter =>
            split_ifs at hm with same
            · obtain rfl := List.mem_singleton.mp hm
              obtain rfl := beq_iff_eq.mp same
              exact ⟨hafter, rfl⟩
            · cases hm
      exact one.trans (ih he)

/-- What a repeated class consumes. -/
theorem mem_ends_rep_one {accepts : Char → Bool}
    (he : e ∈ (Regex.rep greedy least most (.one accepts)).ends c) :
    ∃ word, c.Reaches word e ∧ ∀ x ∈ word, accepts x = true :=
  (consumes_one accepts).iterate greedy _ _ _ c e he

/-- A repetition may take no round. -/
theorem mem_ends_rep_stay (r : Regex) : c ∈ (Regex.rep greedy 0 most r).ends c := by
  rw [ends]
  cases c.after.length with
  | zero => exact mem_iterate_zero.mpr ⟨rfl, rfl⟩
  | succ n => exact mem_iterate_succ.mpr (Or.inl ⟨rfl, rfl⟩)

/-- A repetition of a class may take a whole word of it, if the word is neither too short nor
too long. -/
theorem mem_iterate_word (word : List Char) (all : ∀ x ∈ word, p x = true)
    (before rest : List Char) (greedy : Bool) (fuel : Nat) (le : word.length ≤ fuel)
    (enough : least ≤ word.length) (room : ∀ n, most = some n → word.length ≤ n) :
    ⟨word.reverse ++ before, rest⟩ ∈
      iterate (Regex.one p).ends greedy fuel least most ⟨before, word ++ rest⟩ := by
  induction word generalizing before fuel least most with
  | nil =>
      obtain rfl : least = 0 := Nat.le_zero.mp enough
      cases fuel with
      | zero => exact mem_iterate_zero.mpr ⟨rfl, rfl⟩
      | succ n => exact mem_iterate_succ.mpr (Or.inl ⟨rfl, rfl⟩)
  | cons x word ih =>
      obtain ⟨fuel, rfl⟩ : ∃ n, fuel = n + 1 := ⟨fuel - 1, by simp at le; omega⟩
      have one : (⟨x :: before, word ++ rest⟩ : Cursor) ∈
          (Regex.one p).ends ⟨before, x :: word ++ rest⟩ := by
        simp [ends, all x]
      have open_most : most ≠ some 0 := by
        rintro rfl
        have := room 0 rfl
        simp at this
      refine mem_iterate_succ.mpr (Or.inr ⟨open_most, _, one, by simp, ?_⟩)
      have shorter : ∀ n, most.map (· - 1) = some n → word.length ≤ n := by
        intro n h
        obtain ⟨m, bounded, rfl⟩ := Option.map_eq_some_iff.mp h
        have := room m bounded
        simp only [List.length_cons] at this
        omega
      simp only [List.length_cons] at le enough
      have tail : ⟨word.reverse ++ (x :: before), rest⟩ ∈ iterate (Regex.one p).ends greedy fuel
          (least - 1) (most.map (· - 1)) ⟨x :: before, word ++ rest⟩ :=
        ih (fun y hy => all y (List.mem_cons_of_mem x hy)) _ fuel (by omega) (by omega) shorter
      simpa using tail

/-- A captured text stands between an opening and a closing match. -/
theorem mem_captureFrom {opening body closing : Regex} {found : List Char}
    (member : found ∈ captureFrom opening body closing fuel c) :
    ∃ front s o m e, c.Reaches front s ∧ o ∈ opening.ends s ∧ m ∈ body.ends o ∧
      e ∈ closing.ends m ∧ o.Reaches found m := by
  induction fuel generalizing c with
  | zero => cases member
  | succ fuel ih =>
      rw [captureFrom] at member
      split at member
      · next o' m' e' others matched =>
          have first : (o', m', e') ∈ (opening.ends c).flatMap fun o => (body.ends o).flatMap fun m =>
              (closing.ends m).map fun e => (o, m, e) := by
            rw [matched]
            exact List.mem_cons_self
          simp only [List.mem_flatMap, List.mem_map, Prod.mk.injEq] at first
          obtain ⟨o, ho, m, hm, e, he, rfl, rfl, rfl⟩ := first
          obtain ⟨inside, taken, _⟩ := consumes_ends body o m hm
          rcases List.mem_cons.mp member with rfl | later
          · refine ⟨[], c, o, m, e, .refl c, ho, hm, he, ?_⟩
            have word : o.after.take (o.after.length - m.after.length) = inside := by
              rw [taken.1, List.length_append, Nat.add_sub_cancel, List.take_left]
            rw [word]
            exact taken
          · obtain ⟨opened, start, _⟩ := consumes_ends opening c o ho
            obtain ⟨closed, finish, _⟩ := consumes_ends closing m e he
            obtain ⟨front, s, o', m', e', reaches, rest⟩ := ih later
            exact ⟨_, s, o', m', e', (start.trans (taken.trans finish)).trans reaches, rest⟩
      · split at member
        · cases member
        · next x rest after =>
            obtain ⟨front, s, o, m, e, reaches, found⟩ := ih member
            have step : c.Reaches [x] ⟨x :: c.before, rest⟩ := ⟨after, rfl⟩
            exact ⟨x :: front, s, o, m, e, step.trans reaches, found⟩

/-! ## Positions of a subject -/

theorem mem_cursors {before rest : List Char} :
    c ∈ cursors before rest ↔ ∃ word, Cursor.Reaches ⟨before, rest⟩ word c := by
  induction rest generalizing before with
  | nil =>
      constructor
      · intro hc
        obtain rfl := List.mem_singleton.mp hc
        exact ⟨[], .refl _⟩
      · rintro ⟨word, hafter, hbefore⟩
        obtain ⟨rfl, hrest⟩ := List.append_eq_nil_iff.mp hafter.symm
        exact List.mem_singleton.mpr (by cases c; simp_all)
  | cons x rest ih =>
      rw [cursors, List.mem_cons, ih]
      constructor
      · rintro (rfl | ⟨word, hafter, hbefore⟩)
        · exact ⟨[], .refl _⟩
        · refine ⟨x :: word, congrArg (x :: ·) hafter, ?_⟩
          rw [hbefore, List.reverse_cons, List.append_assoc]
          rfl
      · rintro ⟨word, hafter, hbefore⟩
        cases word with
        | nil => exact Or.inl (by cases c; simp_all)
        | cons y word =>
            obtain ⟨rfl, hrest⟩ := List.cons.inj hafter
            refine Or.inr ⟨word, hrest, ?_⟩
            rw [hbefore, List.reverse_cons, List.append_assoc]
            rfl

theorem test_eq_true {r : Regex} {subject : String} :
    r.test subject = true ↔ ∃ c word e, Cursor.Reaches ⟨[], subject.toList⟩ word c ∧
      e ∈ r.ends c := by
  simp only [test, List.any_eq_true, Bool.not_eq_true', List.isEmpty_eq_false_iff_exists_mem]
  constructor
  · rintro ⟨c, hc, e, he⟩
    obtain ⟨word, reaches⟩ := mem_cursors.mp hc
    exact ⟨c, word, e, reaches, he⟩
  · rintro ⟨c, word, e, reaches, he⟩
    exact ⟨c, mem_cursors.mpr ⟨word, reaches⟩, e, he⟩

theorem mem_ends_atStart : e ∈ atStart.ends c ↔ c.before = [] ∧ e = c := by
  rw [atStart, ends]
  split_ifs with start
  · simpa using fun _ => start
  · simpa using fun empty => absurd empty (by simpa using start)

theorem mem_ends_atEnd : e ∈ atEnd.ends c ↔ c.after = [] ∧ e = c := by
  rw [atEnd, ends]
  split_ifs with finish
  · simpa using fun _ => finish
  · simpa using fun empty => absurd empty (by simpa using finish)

/-- A text that a pattern matches from its start to its end has the characters of the pattern. -/
theorem all_of_test_whole {body : Regex} {subject : String} (within : body.Within p)
    (found : (sequence [atStart, body, atEnd]).test subject = true) :
    ∀ x ∈ subject.toList, p x = true := by
  obtain ⟨c, word, e, ⟨after, before⟩, he⟩ := test_eq_true.mp found
  obtain ⟨o, ho, he⟩ := List.mem_flatMap.mp he
  obtain ⟨m, hm, he⟩ := List.mem_flatMap.mp he
  obtain ⟨f, hf, -⟩ := List.mem_flatMap.mp he
  obtain ⟨start, rfl⟩ := mem_ends_atStart.mp ho
  obtain ⟨finish, -⟩ := mem_ends_atEnd.mp hf
  obtain ⟨consumed, ⟨after', -⟩, all⟩ := within.consumes _ m hm
  have none : word = [] := by simpa [start] using before.symm
  have whole : subject.toList = consumed := by simpa [none, after', finish] using after
  exact whole ▸ all

/-- What a bounded repetition of a class consumes is no longer than its bound. -/
theorem length_of_mem_iterate {accepts : Char → Bool} {bound : Nat}
    (he : e ∈ iterate (Regex.one accepts).ends greedy fuel least (some bound) c) :
    c.after.length ≤ e.after.length + bound := by
  induction fuel generalizing c least bound with
  | zero =>
      obtain ⟨_, rfl⟩ := mem_iterate_zero.mp he
      exact Nat.le_add_right _ _
  | succ fuel ih =>
      rcases mem_iterate_succ.mp he with ⟨_, rfl⟩ | ⟨more, m, one, _, later⟩
      · exact Nat.le_add_right _ _
      · obtain ⟨rest, rfl⟩ : ∃ rest, bound = rest + 1 :=
          Nat.exists_eq_succ_of_ne_zero fun none => more (congrArg some none)
        have tail := ih later
        have single : c.after.length = m.after.length + 1 := by
          simp only [ends] at one
          split at one
          · cases one
          · next x rest' front =>
              split_ifs at one
              · rw [List.mem_singleton.mp one, front, List.length_cons]
              · cases one
        simp only [Nat.add_sub_cancel] at tail
        omega

/-- A text that a bounded repetition of a class matches from its start to its end. -/
theorem length_of_test_whole {accepts : Char → Bool} {bound : Nat} {subject : String}
    (found : (sequence [atStart, .rep greedy least (some bound) (.one accepts), atEnd]).test
      subject = true) : subject.toList.length ≤ bound := by
  obtain ⟨c, word, e, ⟨after, before⟩, he⟩ := test_eq_true.mp found
  obtain ⟨o, ho, he⟩ := List.mem_flatMap.mp he
  obtain ⟨m, hm, he⟩ := List.mem_flatMap.mp he
  obtain ⟨f, hf, -⟩ := List.mem_flatMap.mp he
  obtain ⟨start, rfl⟩ := mem_ends_atStart.mp ho
  obtain ⟨finish, -⟩ := mem_ends_atEnd.mp hf
  have none : word = [] := by simpa [start] using before.symm
  have whole : subject.toList = o.after := by simpa [none] using after
  have short := length_of_mem_iterate hm
  rw [whole]
  simpa [finish] using short

/-! ## Patterns without assertions -/

/-- A pattern whose matches do not depend on what surrounds them. -/
def plain : Regex → Bool
  | .empty => true
  | .one _ => true
  | .assert _ => false
  | .seq first second => first.plain && second.plain
  | .alt first second => first.plain && second.plain
  | .rep _ _ _ body => body.plain
  | .ahead _ => false

theorem mem_ends_extend {r : Regex} (h : r.plain = true) (he : e ∈ r.ends c) :
    e.extend front back ∈ r.ends (c.extend front back) := by
  induction r generalizing c e with
  | empty =>
      obtain rfl := List.mem_singleton.mp he
      exact List.mem_singleton.mpr rfl
  | one accepts =>
      obtain ⟨passed, after⟩ := c
      cases after with
      | nil => cases he
      | cons x rest =>
          simp only [ends] at he
          split_ifs at he with hx
          · obtain rfl := List.mem_singleton.mp he
            simp [ends, Cursor.extend, hx]
          · cases he
  | assert holds => cases h
  | seq first second ih ih' =>
      obtain ⟨h₁, h₂⟩ := Bool.and_eq_true_iff.mp h
      obtain ⟨m, hm, he⟩ := List.mem_flatMap.mp he
      exact List.mem_flatMap.mpr ⟨m.extend front back, ih h₁ hm, ih' h₂ he⟩
  | alt first second ih ih' =>
      obtain ⟨h₁, h₂⟩ := Bool.and_eq_true_iff.mp h
      apply List.mem_append.mpr
      exact (List.mem_append.mp he).imp (ih h₁) (ih' h₂)
  | rep greedy least most body ih =>
      refine mem_iterate_extend (fun c e he => ih h he) ?_ he
      simp [Cursor.extend]
  | ahead body => cases h

/-- A plain pattern found in a part of a subject is found in the subject. -/
theorem test_of_part {r : Regex} (h : r.plain = true) {part : List Char}
    (found : r.test (String.ofList part) = true) :
    r.test (String.ofList (front ++ part ++ back)) = true := by
  obtain ⟨c, word, e, ⟨hafter, hbefore⟩, he⟩ := test_eq_true.mp found
  simp only [String.toList_ofList, List.append_nil] at hafter hbefore
  refine test_eq_true.mpr ⟨c.extend front.reverse back, front ++ word,
    e.extend front.reverse back, ⟨?_, ?_⟩, mem_ends_extend h he⟩
  · simp [Cursor.extend, hafter]
  · simp [Cursor.extend, hbefore]

end Regex

/-! ## White space -/

/-- No character between `!` and `~` is white space. -/
theorem isSpace_of_range {x : Char} (low : 33 ≤ x.toNat) (high : x.toNat ≤ 126) :
    Regex.isSpace x = false := by
  have le (a b : Char) : a ≤ b ↔ a.toNat ≤ b.toNat := Char.le_def.trans UInt32.le_iff_toNat_le
  have chars : '\t'.toNat = 9 ∧ '\r'.toNat = 13 := by decide
  have space : x ≠ ' ' := by
    rintro rfl
    exact absurd low (by decide)
  rw [Bool.eq_false_iff]
  simp only [Regex.isSpace, ne_eq, Bool.or_eq_true, Bool.and_eq_true, decide_eq_true_eq, beq_iff_eq,
    le, space, false_or]
  omega

theorem isAlnum_range {x : Char} (h : Regex.isAlnum x = true) : 48 ≤ x.toNat ∧ x.toNat ≤ 122 := by
  have le (a b : Char) : a ≤ b ↔ a.toNat ≤ b.toNat := Char.le_def.trans UInt32.le_iff_toNat_le
  simp only [Regex.isAlnum, Regex.isLetter, Regex.isDigit, Bool.or_eq_true, Bool.and_eq_true,
    decide_eq_true_eq, le] at h
  have chars : 'a'.toNat = 97 ∧ 'z'.toNat = 122 ∧ 'A'.toNat = 65 ∧ 'Z'.toNat = 90 ∧
    '0'.toNat = 48 ∧ '9'.toNat = 57 := by decide
  omega

theorem isSpace_of_isAlnum {x : Char} (h : Regex.isAlnum x = true) : Regex.isSpace x = false := by
  obtain ⟨low, high⟩ := isAlnum_range h
  exact isSpace_of_range (by omega) (by omega)

/-! ## Trimming -/

theorem trimList_eq_self {text : List Char} (h : ∀ x ∈ text, Regex.isSpace x = false) :
    trimList text = text := by
  have front : text.dropWhile Regex.isSpace = text := by
    apply List.dropWhile_eq_self_iff.mpr
    intro hl hx
    exact absurd hx (by simp [h])
  have back : text.reverse.dropWhile Regex.isSpace = text.reverse := by
    apply List.dropWhile_eq_self_iff.mpr
    intro hl hx
    rw [h _ (List.mem_reverse.mp (List.getElem_mem hl))] at hx
    cases hx
  rw [trimList, front, back, List.reverse_reverse]

/-- A trimmed text stands in the text between white space. -/
theorem trimList_part (text : List Char) :
    ∃ front back, text = front ++ trimList text ++ back ∧
      (∀ x ∈ front, Regex.isSpace x = true) ∧ (∀ x ∈ back, Regex.isSpace x = true) := by
  obtain ⟨front, hfront, start⟩ : ∃ front, text = front ++ text.dropWhile Regex.isSpace ∧
      ∀ x ∈ front, Regex.isSpace x = true :=
    ⟨_, (List.takeWhile_append_dropWhile).symm, fun _ hx => List.mem_takeWhile_imp hx⟩
  obtain ⟨back, hback, finish⟩ : ∃ back, (text.dropWhile Regex.isSpace).reverse =
      back ++ (text.dropWhile Regex.isSpace).reverse.dropWhile Regex.isSpace ∧
        ∀ x ∈ back, Regex.isSpace x = true :=
    ⟨_, (List.takeWhile_append_dropWhile).symm, fun _ hx => List.mem_takeWhile_imp hx⟩
  refine ⟨front, back.reverse, ?_, start, fun x hx => finish x (List.mem_reverse.mp hx)⟩
  have whole := congrArg List.reverse hback
  rw [List.reverse_reverse, List.reverse_append] at whole
  rw [trimList, List.append_assoc, ← whole, ← hfront]

/-- Trimming stops at characters that are no space. -/
theorem trimList_around {front core back : List Char} {first last : Char}
    (starts : core.head? = some first) (ends : core.getLast? = some last)
    (left : Regex.isSpace first = false) (right : Regex.isSpace last = false) :
    trimList (front ++ core ++ back) = front.dropWhile Regex.isSpace ++ core ++ trimEnd back := by
  have drop {text more : List Char} {x : Char} (heads : more.head? = some x)
      (solid : Regex.isSpace x = false) :
      (text ++ more).dropWhile Regex.isSpace = text.dropWhile Regex.isSpace ++ more := by
    cases more with
    | nil => cases heads
    | cons y ys =>
        obtain rfl := Option.some.inj heads
        induction text with
        | nil => simp [solid]
        | cons z zs ih =>
            by_cases space : Regex.isSpace z = true
            · simp [space, ih]
            · simp [space]
  have begins : (core ++ back).head? = some first := by
    cases core with
    | nil => cases starts
    | cons y ys => exact starts
  have finishes : (core.reverse ++ (front.dropWhile Regex.isSpace).reverse).head? = some last := by
    rw [← List.head?_reverse] at ends
    cases shape : core.reverse with
    | nil => simp [shape] at ends
    | cons y ys => simpa [shape] using ends
  rw [trimList, List.append_assoc, drop begins left, List.reverse_append, List.reverse_append,
    List.append_assoc, drop finishes right]
  simp [trimEnd]

theorem trimEnd_append_blank {text blank : List Char} (h : ∀ x ∈ blank, Regex.isSpace x = true) :
    trimEnd (text ++ blank) = trimEnd text := by
  rw [trimEnd, List.reverse_append, List.dropWhile_append_of_pos]
  · rfl
  · exact fun x member => h x (List.mem_reverse.mp member)

theorem trimEnd_eq_self {text : List Char} :
    trimEnd text = text ↔ ∀ x ∈ text.getLast?, Regex.isSpace x = false := by
  rw [trimEnd, List.reverse_eq_iff, ← List.head?_reverse]
  cases text.reverse with
  | nil => simp
  | cons x rest => simp [List.dropWhile_eq_self_iff]

/-- A text after a solid character is trimmed at its end only. -/
theorem trimList_line {first last : Char} {front value blank : List Char}
    (left : Regex.isSpace first = false) (right : Regex.isSpace last = false)
    (h : ∀ x ∈ blank, Regex.isSpace x = true) :
    trimList (first :: front ++ last :: value ++ blank) =
      first :: front ++ last :: trimEnd value := by
  have around := @trimList_around [] (first :: front ++ [last]) (value ++ blank) first last rfl
    (by rw [List.getLast?_append]; rfl) left right
  rw [trimEnd_append_blank h] at around
  simpa using around

theorem mem_of_mem_trimEnd {text : List Char} {x : Char} (member : x ∈ trimEnd text) : x ∈ text :=
  List.mem_reverse.mp ((List.dropWhile_sublist _).subset (List.mem_reverse.mp member))

end AdCoder.Foundation
