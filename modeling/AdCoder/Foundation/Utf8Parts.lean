import AdCoder.Foundation.Utf8Streams
import Mathlib.Algebra.GroupWithZero.Nat

/-!
# Bytes that are decoded part by part

Parts that are decoded on their own give the text of the whole just when no part ends
inside a character that the next one continues. Where one does, the parts give more
characters than the whole.
-/

namespace AdCoder.Foundation.Utf8

/-! ## The byte that would go on -/

/-- The bounds of the byte that is missing, if the bytes end before the character does. -/
def wantTail : Nat → Nat → Nat → List Nat → Option (Nat × Nat)
  | 0, _, _, _ => none
  | _ + 1, lower, upper, [] => some (lower, upper)
  | needed + 1, lower, upper, byte :: rest =>
      if lower ≤ byte ∧ byte ≤ upper then wantTail needed 0x80 0xbf rest else none

/-- The missing byte of a character that starts with a byte that is not ASCII. -/
def wantWide (byte : Nat) (rest : List Nat) : Option (Nat × Nat) :=
  if 0xc2 ≤ byte ∧ byte ≤ 0xdf then wantTail 1 0x80 0xbf rest
  else if byte = 0xe0 then wantTail 2 0xa0 0xbf rest
  else if byte = 0xed then wantTail 2 0x80 0x9f rest
  else if 0xe1 ≤ byte ∧ byte ≤ 0xef then wantTail 2 0x80 0xbf rest
  else if byte = 0xf0 then wantTail 3 0x90 0xbf rest
  else if byte = 0xf4 then wantTail 3 0x80 0x8f rest
  else if 0xf1 ≤ byte ∧ byte ≤ 0xf3 then wantTail 3 0x80 0xbf rest
  else none

/-- The bounds of the byte that would continue the character in which the bytes end. -/
def wants (bytes : List Nat) : Option (Nat × Nat) :=
  match bytes with
  | [] => none
  | byte :: rest =>
      if byte < 0x80 then wants rest
      else match wantWide byte rest with
        | some bounds => some bounds
        | none => wants (readWide byte rest).2
termination_by bytes.length
decreasing_by
  · simp
  · have := (readWide_suffix byte rest).length_le
    simp only [List.length_cons]
    omega

/-- The second part continues a character in which the first one ends. -/
def cuts (front back : List Nat) : Bool :=
  match wants front, back with
  | some (lower, upper), byte :: _ => lower ≤ byte && byte ≤ upper
  | _, _ => false

section Tails

variable {byte needed lower upper point : Nat} {rest more : List Nat}

/-- What is missing continues a character. -/
theorem wantTail_bounds {bounds : Nat × Nat} (low : 0x80 ≤ lower) (high : upper ≤ 0xbf)
    (h : wantTail needed lower upper rest = some bounds) :
    0x80 ≤ bounds.1 ∧ bounds.2 ≤ 0xbf := by
  induction needed generalizing lower upper rest with
  | zero => cases h
  | succ needed ih =>
      cases rest with
      | nil =>
          obtain rfl := Option.some.inj h
          exact ⟨low, high⟩
      | cons next rest =>
          rw [wantTail] at h
          split_ifs at h
          exact ih (Nat.le_refl _) (Nat.le_refl _) h

/-- Where nothing is missing, what comes later is left alone. -/
theorem readTail_whole (h : wantTail needed lower upper rest = none) :
    readTail needed lower upper point (rest ++ more) =
      ((readTail needed lower upper point rest).1,
        (readTail needed lower upper point rest).2 ++ more) := by
  induction needed generalizing lower upper point rest with
  | zero => rfl
  | succ needed ih =>
      cases rest with
      | nil => cases h
      | cons next rest =>
          rw [List.cons_append, readTail, readTail]
          rw [wantTail] at h
          split_ifs at h ⊢ with inside
          · exact ih h
          · rfl

/-- A character that misses a byte is no character, and reads all there is. -/
theorem readTail_open {bounds : Nat × Nat} (h : wantTail needed lower upper rest = some bounds) :
    readTail needed lower upper point rest = (replacement, []) := by
  induction needed generalizing lower upper point rest with
  | zero => cases h
  | succ needed ih =>
      cases rest with
      | nil => rfl
      | cons next rest =>
          rw [readTail]
          rw [wantTail] at h
          split_ifs at h with inside
          rw [if_pos inside]
          exact ih h

/-- A byte beyond the bounds does not belong to the character. -/
theorem readTail_uncut {bounds : Nat × Nat} (h : wantTail needed lower upper rest = some bounds)
    (beyond : ¬ (bounds.1 ≤ byte ∧ byte ≤ bounds.2)) :
    readTail needed lower upper point (rest ++ byte :: more) = (replacement, byte :: more) := by
  induction needed generalizing lower upper point rest with
  | zero => cases h
  | succ needed ih =>
      cases rest with
      | nil =>
          obtain rfl := Option.some.inj h
          rw [List.nil_append, readTail, if_neg beyond]
      | cons next rest =>
          rw [List.cons_append, readTail]
          rw [wantTail] at h
          split_ifs at h with inside
          rw [if_pos inside]
          exact ih h

/-- What a character reads after its first byte continues it. -/
theorem readTail_conts (low : 0x80 ≤ lower) (high : upper ≤ 0xbf) :
    ∃ conts, rest = conts ++ (readTail needed lower upper point rest).2 ∧
      ∀ byte ∈ conts, Continues byte := by
  induction needed generalizing lower upper point rest with
  | zero => exact ⟨[], rfl, by simp⟩
  | succ needed ih =>
      cases rest with
      | nil => exact ⟨[], rfl, by simp⟩
      | cons next rest =>
          rw [readTail]
          split_ifs with inside
          · obtain ⟨conts, same, all⟩ := @ih 0x80 0xbf (point * 64 + (next - 0x80)) rest
              (Nat.le_refl _) (Nat.le_refl _)
            refine ⟨next :: conts, by rw [List.cons_append, ← same], ?_⟩
            exact List.forall_mem_cons.mpr ⟨⟨by omega, by omega⟩, all⟩
          · exact ⟨[], rfl, by simp⟩

/-- A byte within the bounds goes into the character. -/
theorem readTail_cut {bounds : Nat × Nat} (low : 0x80 ≤ lower) (high : upper ≤ 0xbf)
    (h : wantTail needed lower upper rest = some bounds)
    (within : bounds.1 ≤ byte ∧ byte ≤ bounds.2) :
    ∃ conts, more = conts ++ (readTail needed lower upper point (rest ++ byte :: more)).2 ∧
      ∀ byte ∈ conts, Continues byte := by
  induction needed generalizing lower upper point rest with
  | zero => cases h
  | succ needed ih =>
      cases rest with
      | nil =>
          obtain rfl := Option.some.inj h
          rw [List.nil_append, readTail, if_pos within]
          exact readTail_conts (Nat.le_refl _) (Nat.le_refl _)
      | cons next rest =>
          rw [List.cons_append, readTail]
          rw [wantTail] at h
          split_ifs at h with inside
          rw [if_pos inside]
          exact ih (Nat.le_refl _) (Nat.le_refl _) h

end Tails

/-! ## Characters beyond ASCII -/

section Wide

variable {byte next : Nat} {rest more : List Nat}

/-- A byte beyond ASCII starts a character, or stands alone. -/
theorem readWide_shape (byte : Nat) :
    (∃ needed lower upper point, 0x80 ≤ lower ∧ upper ≤ 0xbf ∧ ∀ rest,
      readWide byte rest = readTail needed lower upper point rest ∧
        wantWide byte rest = wantTail needed lower upper rest) ∨
      ∀ rest, readWide byte rest = (replacement, rest) ∧ wantWide byte rest = none := by
  unfold readWide wantWide
  split_ifs
  all_goals first
    | exact .inl ⟨_, _, _, _, by decide, by decide, fun _ => ⟨rfl, rfl⟩⟩
    | exact .inr fun _ => ⟨rfl, rfl⟩

/-- A byte that continues a character starts none. -/
theorem readWide_continues (h : Continues byte) : readWide byte rest = (replacement, rest) := by
  obtain ⟨low, high⟩ := h
  unfold readWide
  split_ifs
  all_goals first | omega | rfl

theorem wantWide_bounds {bounds : Nat × Nat} (h : wantWide byte rest = some bounds) :
    0x80 ≤ bounds.1 ∧ bounds.2 ≤ 0xbf := by
  obtain ⟨_, _, _, _, low, high, tail⟩ | alone := readWide_shape byte
  · exact wantTail_bounds low high ((tail rest).2 ▸ h)
  · cases (alone rest).2 ▸ h

theorem readWide_whole (h : wantWide byte rest = none) :
    readWide byte (rest ++ more) = ((readWide byte rest).1, (readWide byte rest).2 ++ more) := by
  obtain ⟨_, _, _, _, _, _, tail⟩ | alone := readWide_shape byte
  · rw [(tail rest).2] at h
    rw [(tail rest).1, (tail _).1, readTail_whole h]
  · rw [(alone rest).1, (alone _).1]

theorem readWide_open {bounds : Nat × Nat} (h : wantWide byte rest = some bounds) :
    readWide byte rest = (replacement, []) := by
  obtain ⟨_, _, _, _, _, _, tail⟩ | alone := readWide_shape byte
  · rw [(tail rest).2] at h
    rw [(tail rest).1, readTail_open h]
  · cases (alone rest).2 ▸ h

theorem readWide_uncut {bounds : Nat × Nat} (h : wantWide byte rest = some bounds)
    (beyond : ¬ (bounds.1 ≤ next ∧ next ≤ bounds.2)) :
    readWide byte (rest ++ next :: more) = (replacement, next :: more) := by
  obtain ⟨_, _, _, _, _, _, tail⟩ | alone := readWide_shape byte
  · rw [(tail rest).2] at h
    rw [(tail _).1, readTail_uncut h beyond]
  · cases (alone rest).2 ▸ h

theorem readWide_cut {bounds : Nat × Nat} (h : wantWide byte rest = some bounds)
    (within : bounds.1 ≤ next ∧ next ≤ bounds.2) :
    ∃ conts, more = conts ++ (readWide byte (rest ++ next :: more)).2 ∧
      ∀ byte ∈ conts, Continues byte := by
  obtain ⟨_, _, _, _, low, high, tail⟩ | alone := readWide_shape byte
  · rw [(tail rest).2] at h
    rw [(tail _).1]
    exact readTail_cut low high h within
  · cases (alone rest).2 ▸ h

/-- Bytes that only continue are read one by one. -/
theorem length_lossy_conts {conts : List Nat} (all : ∀ byte ∈ conts, Continues byte) :
    (lossy (conts ++ rest)).length = conts.length + (lossy rest).length := by
  induction conts with
  | nil => simp
  | cons cont conts ih =>
      obtain ⟨first, later⟩ := List.forall_mem_cons.mp all
      have wide : ¬ cont < 0x80 := by
        have := first.1
        omega
      rw [List.cons_append, lossy_wide wide, readWide_continues first, List.length_cons,
        ih later, List.length_cons]
      omega

end Wide

/-! ## Two parts -/

section Parts

variable {front back : List Nat}

theorem wants_ascii {byte : Nat} {rest : List Nat} (ascii : byte < 0x80) :
    wants (byte :: rest) = wants rest := by
  rw [wants, if_pos ascii]

theorem wants_wide {byte : Nat} {rest : List Nat} (wide : ¬ byte < 0x80) :
    wants (byte :: rest) = match wantWide byte rest with
      | some bounds => some bounds
      | none => wants (readWide byte rest).2 := by
  rw [wants, if_neg wide]

/-- Two parts give the text of the whole unless the first ends inside a character that
the second continues; then they give more characters. -/
theorem lossy_append (front back : List Nat) :
    (cuts front back = false ∧ lossy (front ++ back) = lossy front ++ lossy back) ∨
      (cuts front back = true ∧
        (lossy (front ++ back)).length < (lossy front).length + (lossy back).length) := by
  induction hsize : front.length using Nat.strongRecOn generalizing front with
  | ind size ih =>
      cases front with
      | nil => exact .inl ⟨by simp [cuts, wants], rfl⟩
      | cons byte rest =>
          rw [List.length_cons] at hsize
          by_cases ascii : byte < 0x80
          · have same : cuts (byte :: rest) back = cuts rest back := by
              simp only [cuts, wants_ascii ascii]
            rw [same, List.cons_append, lossy_ascii ascii, lossy_ascii ascii, List.cons_append,
              List.length_cons, List.length_cons]
            obtain ⟨whole, eq⟩ | ⟨cut, less⟩ := ih _ (by omega) rest rfl
            · exact .inl ⟨whole, by rw [eq]⟩
            · exact .inr ⟨cut, by omega⟩
          · have shorter := (readWide_suffix byte rest).length_le
            rw [List.cons_append, lossy_wide ascii, lossy_wide ascii, List.cons_append,
              List.length_cons, List.length_cons]
            cases missing : wantWide byte rest with
            | none =>
                have same : cuts (byte :: rest) back = cuts (readWide byte rest).2 back := by
                  simp only [cuts, wants_wide ascii, missing]
                rw [same, readWide_whole missing]
                dsimp only
                obtain ⟨whole, eq⟩ | ⟨cut, less⟩ := ih _ (by omega) (readWide byte rest).2 rfl
                · exact .inl ⟨whole, by rw [eq]⟩
                · exact .inr ⟨cut, by omega⟩
            | some bounds =>
                have wanted : wants (byte :: rest) = some bounds := by
                  rw [wants_wide ascii, missing]
                rw [readWide_open missing]
                cases back with
                | nil =>
                    refine .inl ⟨by simp [cuts, wanted], ?_⟩
                    rw [List.append_nil, readWide_open missing, lossy_nil, List.append_nil]
                | cons next more =>
                    by_cases within : bounds.1 ≤ next ∧ next ≤ bounds.2
                    · obtain ⟨conts, same, all⟩ := @readWide_cut byte next rest more _ missing within
                      have size := @length_lossy_conts
                        (readWide byte (rest ++ next :: more)).2 conts all
                      rw [← same] at size
                      have bounded := wantWide_bounds missing
                      have cont : Continues next := ⟨by omega, by omega⟩
                      have wide : ¬ next < 0x80 := by
                        have := cont.1
                        omega
                      refine .inr ⟨by simp [cuts, wanted, within], ?_⟩
                      rw [lossy_wide wide, readWide_continues cont, lossy_nil, List.length_nil,
                        List.length_cons]
                      dsimp only
                      omega
                    · refine .inl ⟨?_, ?_⟩
                      · simp only [cuts, wanted]
                        simpa using within
                      · rw [readWide_uncut missing within, lossy_nil, List.nil_append]

/-! ## A decoder that keeps what is unfinished -/

theorem wantTail_append {needed lower upper : Nat} {rest : List Nat}
    (h : wantTail needed lower upper rest = none) (more : List Nat) :
    wantTail needed lower upper (rest ++ more) = none := by
  induction needed generalizing lower upper rest with
  | zero => rfl
  | succ needed ih =>
      cases rest with
      | nil => cases h
      | cons next rest =>
          rw [List.cons_append, wantTail]
          rw [wantTail] at h
          split_ifs at h ⊢
          · exact ih h
          · rfl

theorem wantWide_append {byte : Nat} {rest : List Nat} (h : wantWide byte rest = none)
    (more : List Nat) : wantWide byte (rest ++ more) = none := by
  obtain ⟨_, _, _, _, _, _, tail⟩ | alone := readWide_shape byte
  · rw [(tail _).2]
    exact wantTail_append ((tail rest).2 ▸ h) more
  · exact (alone _).2

/-- The text of the complete characters, and the bytes of one that has only begun. -/
def decodeOpen (bytes : List Nat) : List Char × List Nat :=
  match bytes with
  | [] => ([], [])
  | byte :: rest =>
      if byte < 0x80 then
        (Char.ofNat byte :: (decodeOpen rest).1, (decodeOpen rest).2)
      else if (wantWide byte rest).isSome then ([], byte :: rest)
      else
        ((readWide byte rest).1 :: (decodeOpen (readWide byte rest).2).1,
          (decodeOpen (readWide byte rest).2).2)
termination_by bytes.length
decreasing_by
  · simp
  · have := (readWide_suffix byte rest).length_le
    simp only [List.length_cons]
    omega

@[simp] theorem decodeOpen_nil : decodeOpen [] = ([], []) := by rw [decodeOpen]

/-- What is decoded in two parts, with the unfinished bytes of the first, is decoded as
the whole. -/
theorem decodeOpen_append (front back : List Nat) :
    decodeOpen (front ++ back) =
      ((decodeOpen front).1 ++ (decodeOpen ((decodeOpen front).2 ++ back)).1,
        (decodeOpen ((decodeOpen front).2 ++ back)).2) := by
  induction hsize : front.length using Nat.strongRecOn generalizing front with
  | ind size ih =>
      cases front with
      | nil => simp
      | cons byte rest =>
          rw [List.length_cons] at hsize
          by_cases ascii : byte < 0x80
          · have first : decodeOpen (byte :: rest) =
                (Char.ofNat byte :: (decodeOpen rest).1, (decodeOpen rest).2) := by
              rw [decodeOpen, if_pos ascii]
            rw [List.cons_append, decodeOpen, if_pos ascii, ih _ (by omega) rest rfl, first]
            rfl
          · cases missing : wantWide byte rest with
            | some bounds =>
                have first : decodeOpen (byte :: rest) = ([], byte :: rest) := by
                  rw [decodeOpen, if_neg ascii, missing, Option.isSome_some, if_pos rfl]
                rw [first]
                rfl
            | none =>
                have shorter := (readWide_suffix byte rest).length_le
                have first : decodeOpen (byte :: rest) =
                    ((readWide byte rest).1 :: (decodeOpen (readWide byte rest).2).1,
                      (decodeOpen (readWide byte rest).2).2) := by
                  rw [decodeOpen, if_neg ascii, missing, Option.isSome_none,
                    if_neg Bool.false_ne_true]
                rw [first, List.cons_append, decodeOpen, if_neg ascii,
                  wantWide_append missing back, Option.isSome_none, if_neg Bool.false_ne_true,
                  readWide_whole missing]
                dsimp only
                rw [ih _ (by omega) (readWide byte rest).2 rfl]
                rfl

/-- Bytes that end with a character give the text of the whole. -/
theorem lossy_of_decodeOpen {bytes : List Nat} (closed : (decodeOpen bytes).2 = []) :
    lossy bytes = (decodeOpen bytes).1 := by
  induction hsize : bytes.length using Nat.strongRecOn generalizing bytes with
  | ind size ih =>
      cases bytes with
      | nil => simp
      | cons byte rest =>
          rw [List.length_cons] at hsize
          rw [decodeOpen] at closed ⊢
          split_ifs at closed ⊢ with ascii
          · rw [lossy_ascii ascii, ih _ (by omega) closed rfl]
          · have shorter := (readWide_suffix byte rest).length_le
            rw [lossy_wide ascii, ih _ (by omega) closed rfl]

theorem decodeOpen_ascii {text : List Char} (ascii : ∀ x ∈ text, x.toNat < 0x80) :
    decodeOpen (text.map Char.toNat) = (text, []) := by
  induction text with
  | nil => simp
  | cons x text ih =>
      obtain ⟨first, later⟩ := List.forall_mem_cons.mp ascii
      rw [List.map_cons, decodeOpen, if_pos first, ih later, Char.ofNat_toNat]

/-! ## Sizes -/

/-- A character outside the plane of the first 65536 takes more than one byte. -/
theorem readWide_size (byte : Nat) (rest : List Nat) :
    (readWide byte rest).1.toNat < 0x10000 ∨
      (readWide byte rest).2.length + 1 ≤ rest.length := by
  have tail {needed lower upper point : Nat} :
      (readTail (needed + 1) lower upper point rest).1.toNat < 0x10000 ∨
        (readTail (needed + 1) lower upper point rest).2.length + 1 ≤ rest.length := by
    cases rest with
    | nil => exact .inl (show replacement.toNat < 0x10000 by decide)
    | cons next rest =>
        rw [readTail]
        split_ifs
        · exact .inr (by simpa using readTail_suffix.length_le)
        · exact .inl (show replacement.toNat < 0x10000 by decide)
  unfold readWide
  split_ifs
  all_goals first
    | exact tail
    | exact .inl (show replacement.toNat < 0x10000 by decide)

/-- Text whose characters beyond the first plane count twice is no longer than its bytes. -/
theorem sum_lossy_le {size : Char → Nat} (one : ∀ x, x.toNat < 0x10000 → size x ≤ 1)
    (two : ∀ x, size x ≤ 2) (bytes : List Nat) :
    ((lossy bytes).map size).sum ≤ bytes.length := by
  induction hsize : bytes.length using Nat.strongRecOn generalizing bytes with
  | ind total ih =>
      cases bytes with
      | nil => exact Nat.zero_le _
      | cons byte rest =>
          rw [List.length_cons] at hsize
          by_cases ascii : byte < 0x80
          · have small : (Char.ofNat byte).toNat < 0x10000 := by
              rw [toNat_ofNat (.inl (by omega))]
              omega
            have later := ih _ (by omega) rest rfl
            have first := one _ small
            rw [lossy_ascii ascii, List.map_cons, List.sum_cons]
            omega
          · have shorter := (readWide_suffix byte rest).length_le
            have later := ih _ (by omega) (readWide byte rest).2 rfl
            rw [lossy_wide ascii, List.map_cons, List.sum_cons]
            obtain small | fewer := readWide_size byte rest
            · have first := one _ small
              omega
            · have first := two (readWide byte rest).1
              omega

end Parts

end AdCoder.Foundation.Utf8
