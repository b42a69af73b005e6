import AdCoder.Foundation.Utf8
import AdCoder.Foundation.Lists

/-!
# Bytes that are read as they come

A reader that is given bytes in several parts reads the whole only when no part
ends inside a character. A byte that starts a character ends the one before it,
so the lines of a text are those of its bytes.
-/

namespace AdCoder.Foundation.Utf8

/-- `buffer.toString("utf8")`; a mark at the start is kept. -/
def lossy (bytes : List Nat) : List Char := readLossy bytes.length bytes

/-- The bytes of a character. -/
def encodeChar (x : Char) : List Nat := (String.utf8EncodeChar x).map UInt8.toNat

/-- The bytes in which a text is written. -/
def encode (text : List Char) : List Nat := text.flatMap encodeChar

/-- A byte that continues no character. -/
def Starts (byte : Nat) : Prop := byte < 0x80 ∨ 0xbf < byte

section Characters

variable {byte needed lower upper point fuel : Nat} {rest bytes : List Nat}

/-! ## One character -/

theorem readTail_suffix : (readTail needed lower upper point rest).2 <:+ rest := by
  induction needed generalizing lower upper point rest with
  | zero => exact List.suffix_refl rest
  | succ needed ih =>
      cases rest with
      | nil => exact List.suffix_refl []
      | cons byte rest =>
          rw [readTail]
          split_ifs
          · exact ih.trans (List.suffix_cons byte rest)
          · exact List.suffix_refl _

theorem readWide_suffix (byte : Nat) (rest : List Nat) : (readWide byte rest).2 <:+ rest := by
  unfold readWide
  split_ifs
  all_goals first | exact readTail_suffix | exact List.suffix_refl rest

theorem readLossy_rounds (bytes : List Nat) (more less : Nat) (enough : bytes.length ≤ more)
    (enough' : bytes.length ≤ less) : readLossy more bytes = readLossy less bytes := by
  induction hsize : bytes.length using Nat.strongRecOn generalizing bytes more less with
  | ind size ih =>
      cases bytes with
      | nil => cases more <;> cases less <;> rfl
      | cons byte rest =>
          rw [List.length_cons] at hsize enough enough'
          obtain ⟨more, rfl⟩ := Nat.exists_eq_add_of_lt (show 0 < more by omega)
          obtain ⟨less, rfl⟩ := Nat.exists_eq_add_of_lt (show 0 < less by omega)
          have shorter := (readWide_suffix byte rest).length_le
          simp only [Nat.zero_add, readLossy]
          split_ifs
          · rw [ih _ (by omega) rest more less (by omega) (by omega) rfl]
          · rw [ih _ (by omega) (readWide byte rest).2 more less (by omega) (by omega) rfl]

/-- Enough rounds read all of the bytes. -/
theorem readLossy_fuel (enough : bytes.length ≤ fuel) : readLossy fuel bytes = lossy bytes :=
  readLossy_rounds bytes fuel _ enough (Nat.le_refl _)

@[simp] theorem lossy_nil : lossy [] = [] := rfl

theorem lossy_ascii (ascii : byte < 0x80) :
    lossy (byte :: rest) = Char.ofNat byte :: lossy rest := by
  simp [lossy, readLossy, ascii]

theorem lossy_wide (wide : ¬ byte < 0x80) :
    lossy (byte :: rest) = (readWide byte rest).1 :: lossy (readWide byte rest).2 := by
  have shorter := (readWide_suffix byte rest).length_le
  rw [← readLossy_fuel shorter]
  simp [lossy, readLossy, wide]

/-! ## A byte that starts a character -/

theorem readTail_append (start : Starts byte) (low : 0x80 ≤ lower) (high : upper ≤ 0xbf) :
    readTail needed lower upper point (bytes ++ byte :: rest) =
      ((readTail needed lower upper point bytes).1,
        (readTail needed lower upper point bytes).2 ++ byte :: rest) := by
  induction needed generalizing lower upper point bytes with
  | zero => rfl
  | succ needed ih =>
      cases bytes with
      | nil =>
          have outside : ¬ (lower ≤ byte ∧ byte ≤ upper) := by
            rw [Starts] at start
            omega
          simp [readTail, outside]
      | cons next bytes =>
          rw [List.cons_append, readTail, readTail]
          split_ifs
          · exact ih (Nat.le_refl _) (Nat.le_refl _)
          · rfl

theorem readWide_append {first : Nat} (start : Starts byte) :
    readWide first (bytes ++ byte :: rest) =
      ((readWide first bytes).1, (readWide first bytes).2 ++ byte :: rest) := by
  unfold readWide
  split_ifs
  all_goals first | exact readTail_append start (by decide) (by decide) | rfl

/-- A byte that starts a character ends the one before it. -/
theorem lossy_append_start (start : Starts byte) :
    lossy (bytes ++ byte :: rest) = lossy bytes ++ lossy (byte :: rest) := by
  induction hsize : bytes.length using Nat.strongRecOn generalizing bytes with
  | ind size ih =>
      cases bytes with
      | nil => rfl
      | cons first bytes =>
          rw [List.length_cons] at hsize
          rw [List.cons_append]
          by_cases ascii : first < 0x80
          · rw [lossy_ascii ascii, lossy_ascii ascii, ih _ (by omega) rfl, List.cons_append]
          · have shorter := (readWide_suffix first bytes).length_le
            rw [lossy_wide ascii, lossy_wide ascii, readWide_append start,
              ih _ (by omega) rfl, List.cons_append]

/-! ## The characters that bytes beyond ASCII make -/

theorem readTail_char (rest : List Nat) {low high : Nat}
    (first : ∀ byte, lower ≤ byte → byte ≤ upper →
      low ≤ point * 64 + (byte - 0x80) ∧ point * 64 + (byte - 0x80) < high) :
    (readTail (needed + 1) lower upper point rest).1 = replacement ∨
      ∃ q, low * 64 ^ needed ≤ q ∧ q < high * 64 ^ needed ∧
        (readTail (needed + 1) lower upper point rest).1 = Char.ofNat q := by
  induction needed generalizing lower upper point rest low high with
  | zero =>
      cases rest with
      | nil => exact .inl rfl
      | cons byte rest =>
          rw [readTail]
          split_ifs with inside
          · obtain ⟨above, below⟩ := first byte inside.1 inside.2
            refine .inr ⟨point * 64 + (byte - 0x80), by simpa using above, by simpa using below, ?_⟩
            rw [readTail]
          · exact .inl rfl
  | succ needed ih =>
      cases rest with
      | nil => exact .inl rfl
      | cons byte rest =>
          rw [readTail]
          split_ifs with inside
          · obtain ⟨above, below⟩ := first byte inside.1 inside.2
            have next : ∀ more, 0x80 ≤ more → more ≤ 0xbf →
                low * 64 ≤ (point * 64 + (byte - 0x80)) * 64 + (more - 0x80) ∧
                  (point * 64 + (byte - 0x80)) * 64 + (more - 0x80) < high * 64 := by
              intro more _ _
              omega
            obtain same | ⟨q, least, most, same⟩ := ih rest next
            · exact .inl same
            · refine .inr ⟨q, ?_, ?_, same⟩
              · calc
                  low * 64 ^ (needed + 1) = low * 64 * 64 ^ needed := by
                    rw [Nat.pow_succ', Nat.mul_assoc]
                  _ ≤ q := least
              · calc
                  q < high * 64 * 64 ^ needed := most
                  _ = high * 64 ^ (needed + 1) := by rw [Nat.pow_succ', Nat.mul_assoc]
          · exact .inl rfl

theorem toNat_ofNat {n : Nat} (valid : n.isValidChar) : (Char.ofNat n).toNat = n := by
  rw [Char.ofNat, dif_pos valid]
  rfl

theorem readTail_toNat (low high : Nat)
    (first : ∀ byte, lower ≤ byte → byte ≤ upper →
      low ≤ point * 64 + (byte - 0x80) ∧ point * 64 + (byte - 0x80) < high)
    (least : 0x80 ≤ low * 64 ^ needed)
    (valid : high * 64 ^ needed ≤ 0xd800 ∨
      0xdfff < low * 64 ^ needed ∧ high * 64 ^ needed ≤ 0x110000) :
    0x80 ≤ (readTail (needed + 1) lower upper point rest).1.toNat := by
  obtain same | ⟨q, above, below, same⟩ := readTail_char rest first
  · rw [same]
    decide
  · have valid : q.isValidChar := by
      rw [Nat.isValidChar]
      omega
    rw [same, toNat_ofNat valid]
    omega

/-- No byte beyond ASCII starts a character of ASCII. -/
theorem readWide_toNat (byte : Nat) : 0x80 ≤ (readWide byte rest).1.toNat := by
  unfold readWide
  split_ifs
  · exact readTail_toNat 128 2048 (fun _ _ _ => by omega) (by decide) (by decide)
  · exact readTail_toNat 32 64 (fun _ _ _ => by omega) (by decide) (by decide)
  · exact readTail_toNat 832 864 (fun _ _ _ => by omega) (by decide) (by decide)
  · by_cases early : byte < 0xed
    · exact readTail_toNat 64 832 (fun _ _ _ => by omega) (by decide)
        (by decide)
    · exact readTail_toNat 896 1024 (fun _ _ _ => by omega) (by decide)
        (by decide)
  · exact readTail_toNat 16 64 (fun _ _ _ => by omega) (by decide) (by decide)
  · exact readTail_toNat 256 272 (fun _ _ _ => by omega) (by decide)
      (by decide)
  · exact readTail_toNat 64 256 (fun _ _ _ => by omega) (by decide) (by decide)
  · show 0x80 ≤ replacement.toNat
    decide

/-- A character of ASCII is one of the bytes. -/
theorem mem_of_lossy {x : Char} (ascii : x.toNat < 0x80) (member : x ∈ lossy bytes) :
    x.toNat ∈ bytes := by
  induction hsize : bytes.length using Nat.strongRecOn generalizing bytes with
  | ind size ih =>
      cases bytes with
      | nil => cases member
      | cons byte rest =>
          rw [List.length_cons] at hsize
          by_cases small : byte < 0x80
          · rw [lossy_ascii small] at member
            obtain rfl | later := List.mem_cons.mp member
            · rw [toNat_ofNat (.inl (by omega))]
              exact List.mem_cons_self
            · exact List.mem_cons_of_mem _ (ih _ (by omega) later rfl)
          · have suffix := readWide_suffix byte rest
            have shorter := suffix.length_le
            rw [lossy_wide small] at member
            obtain rfl | later := List.mem_cons.mp member
            · have := @readWide_toNat rest byte
              omega
            · exact List.mem_cons_of_mem _ (suffix.subset (ih _ (by omega) later rfl))

/-! ## Lines -/

theorem lossy_intercalate {parts : List (List Nat)} :
    lossy ([0x0a].intercalate parts) = ['\n'].intercalate (parts.map lossy) := by
  induction parts with
  | nil => rfl
  | cons part more ih =>
      cases more with
      | nil => simp
      | cons next more =>
          have start : Starts 0x0a := .inl (by decide)
          rw [List.intercalate_cons_cons, List.map_cons, List.map_cons,
            List.intercalate_cons_cons, List.append_assoc, List.singleton_append,
            lossy_append_start start, lossy_ascii (by decide), ih, List.map_cons,
            List.append_assoc, List.singleton_append]

/-- The lines of a text are those of its bytes. -/
theorem lossy_splitOn (bytes : List Nat) :
    (lossy bytes).splitOn '\n' = (bytes.splitOn 0x0a).map lossy := by
  have joined : [0x0a].intercalate (bytes.splitOn 0x0a) = bytes := List.intercalate_splitOn 0x0a
  have free : ∀ line ∈ (bytes.splitOn 0x0a).map lossy, '\n' ∉ line := by
    intro line member newline
    obtain ⟨part, among, rfl⟩ := List.mem_map.mp member
    exact separator_notMem_splitOn among (mem_of_lossy (by decide) newline)
  have some : (bytes.splitOn 0x0a).map lossy ≠ [] := by
    simp [List.splitOn_ne_nil]
  calc
    (lossy bytes).splitOn '\n'
        = (lossy ([0x0a].intercalate (bytes.splitOn 0x0a))).splitOn '\n' := by rw [joined]
    _ = (['\n'].intercalate ((bytes.splitOn 0x0a).map lossy)).splitOn '\n' := by
      rw [lossy_intercalate]
    _ = (bytes.splitOn 0x0a).map lossy := List.splitOn_intercalate _ free some

/-! ## Written text -/

/-- The bytes of a character, by the number of its bits. -/
theorem encodeChar_eq (x : Char) : encodeChar x =
    if x.toNat ≤ 0x7f then [x.toNat]
    else if x.toNat ≤ 0x7ff then [x.toNat / 64 % 32 + 0xc0, x.toNat % 64 + 0x80]
    else if x.toNat ≤ 0xffff then
      [x.toNat / 4096 % 16 + 0xe0, x.toNat / 64 % 64 + 0x80, x.toNat % 64 + 0x80]
    else [x.toNat / 262144 % 8 + 0xf0, x.toNat / 4096 % 64 + 0x80, x.toNat / 64 % 64 + 0x80,
      x.toNat % 64 + 0x80] := by
  have byte {n : Nat} (small : n < 256) : (UInt8.ofNat n).toNat = n :=
    Nat.mod_eq_of_lt small
  have scalar : x.val.toNat = x.toNat := rfl
  unfold encodeChar String.utf8EncodeChar
  simp only [scalar]
  generalize x.toNat = n
  split_ifs
  · rw [List.map_singleton, byte (by omega)]
  · rw [List.map_cons, List.map_singleton, byte (by omega), byte (by omega)]
  · rw [List.map_cons, List.map_cons, List.map_singleton, byte (by omega), byte (by omega),
      byte (by omega)]
  · rw [List.map_cons, List.map_cons, List.map_cons, List.map_singleton, byte (by omega),
      byte (by omega), byte (by omega), byte (by omega)]

/-- A byte that continues a character. -/
abbrev Continues (byte : Nat) : Prop := 0x80 ≤ byte ∧ byte ≤ 0xbf

theorem readWide_two {b : Nat} (lead : 0xc2 ≤ byte ∧ byte ≤ 0xdf) (tail : Continues b) :
    readWide byte (b :: rest) = (Char.ofNat ((byte - 0xc0) * 64 + (b - 0x80)), rest) := by
  rw [readWide, if_pos lead, readTail, if_pos tail, readTail]

theorem readWide_three {b c : Nat} (lead : 0xe0 ≤ byte ∧ byte ≤ 0xef) (second : Continues b)
    (third : Continues c) (e0 : byte = 0xe0 → 0xa0 ≤ b) (ed : byte = 0xed → b ≤ 0x9f) :
    readWide byte (b :: c :: rest) =
      (Char.ofNat (((byte - 0xe0) * 64 + (b - 0x80)) * 64 + (c - 0x80)), rest) := by
  rw [readWide, if_neg (by omega)]
  split_ifs with first last between
  · rw [readTail, if_pos ⟨e0 first, second.2⟩, readTail, if_pos third, readTail, first]
  · rw [readTail, if_pos ⟨second.1, ed last⟩, readTail, if_pos third, readTail, last]
  · rw [readTail, if_pos second, readTail, if_pos third, readTail]
  all_goals omega

theorem readWide_four {b c d : Nat} (lead : 0xf0 ≤ byte ∧ byte ≤ 0xf4) (second : Continues b)
    (third : Continues c) (fourth : Continues d) (f0 : byte = 0xf0 → 0x90 ≤ b)
    (f4 : byte = 0xf4 → b ≤ 0x8f) : readWide byte (b :: c :: d :: rest) =
      (Char.ofNat ((((byte - 0xf0) * 64 + (b - 0x80)) * 64 + (c - 0x80)) * 64 + (d - 0x80)),
        rest) := by
  rw [readWide, if_neg (by omega), if_neg (by omega), if_neg (by omega), if_neg (by omega)]
  split_ifs with first last between
  · rw [readTail, if_pos ⟨f0 first, second.2⟩, readTail, if_pos third, readTail,
      if_pos fourth, readTail, first]
  · rw [readTail, if_pos ⟨second.1, f4 last⟩, readTail, if_pos third, readTail, if_pos fourth,
      readTail, last]
  · rw [readTail, if_pos second, readTail, if_pos third, readTail, if_pos fourth, readTail]
  · omega

theorem lossy_encodeChar (x : Char) : lossy (encodeChar x ++ rest) = x :: lossy rest := by
  have scalar : x.toNat.isValidChar := x.valid
  have whole : Char.ofNat x.toNat = x := Char.ofNat_toNat x
  have tail (n : Nat) : Continues (n % 64 + 0x80) := ⟨by omega, by omega⟩
  rw [Nat.isValidChar] at scalar
  rw [encodeChar_eq]
  generalize x.toNat = n at scalar whole ⊢
  split_ifs with one two three
  · rw [List.singleton_append, lossy_ascii (by omega), whole]
  · have point : (n / 64 % 32 + 0xc0 - 0xc0) * 64 + (n % 64 + 0x80 - 0x80) = n := by omega
    rw [List.cons_append, List.singleton_append, lossy_wide (by omega),
      readWide_two (by omega) (tail n), point, whole]
  · have point : ((n / 4096 % 16 + 0xe0 - 0xe0) * 64 + (n / 64 % 64 + 0x80 - 0x80)) * 64 +
        (n % 64 + 0x80 - 0x80) = n := by omega
    rw [List.cons_append, List.cons_append, List.singleton_append, lossy_wide (by omega),
      readWide_three (by omega) (tail (n / 64)) (tail n) (by omega) (by omega), point, whole]
  · have point : (((n / 262144 % 8 + 0xf0 - 0xf0) * 64 + (n / 4096 % 64 + 0x80 - 0x80)) * 64 +
        (n / 64 % 64 + 0x80 - 0x80)) * 64 + (n % 64 + 0x80 - 0x80) = n := by omega
    rw [List.cons_append, List.cons_append, List.cons_append, List.singleton_append,
      lossy_wide (by omega), readWide_four (by omega) (tail (n / 4096)) (tail (n / 64)) (tail n)
        (by omega) (by omega), point, whole]

@[simp] theorem encode_nil : encode [] = [] := rfl

@[simp] theorem encode_cons (x : Char) (text : List Char) :
    encode (x :: text) = encodeChar x ++ encode text := rfl

@[simp] theorem encode_append (front back : List Char) :
    encode (front ++ back) = encode front ++ encode back :=
  List.flatMap_append

/-- Written text is read back, whatever stands behind it. -/
theorem lossy_encode_append (text : List Char) :
    lossy (encode text ++ rest) = text ++ lossy rest := by
  induction text with
  | nil => rfl
  | cons x text ih => rw [encode_cons, List.append_assoc, lossy_encodeChar, ih, List.cons_append]

@[simp] theorem lossy_encode (text : List Char) : lossy (encode text) = text := by
  have whole := @lossy_encode_append [] text
  rwa [List.append_nil, lossy_nil, List.append_nil] at whole

/-- A prefix of a character's bytes has no byte of ASCII, unless it is the whole. -/
theorem wide_of_encodeChar_take (x : Char) {n : Nat} (short : n < (encodeChar x).length) :
    ∀ byte ∈ (encodeChar x).take n, 0x80 ≤ byte := by
  rw [encodeChar_eq] at short ⊢
  generalize x.toNat = point at short ⊢
  split_ifs at short ⊢ with one two three
  · obtain rfl : n = 0 := by simpa using short
    simp
  all_goals
    intro byte member
    have among := List.mem_of_mem_take member
    simp only [List.mem_cons, List.not_mem_nil, or_false] at among
    omega

/-- The first bytes of a text are those of its first characters and a part of the next one. -/
theorem encode_take (text : List Char) (n : Nat) :
    ∃ front tail, front <+: text ∧ (encode text).take n = encode front ++ tail ∧
      ∀ byte ∈ tail, 0x80 ≤ byte := by
  induction text generalizing n with
  | nil => exact ⟨[], [], List.prefix_refl [], by simp, by simp⟩
  | cons x text ih =>
      by_cases short : n < (encodeChar x).length
      · refine ⟨[], (encodeChar x).take n, List.nil_prefix, ?_, wide_of_encodeChar_take x short⟩
        rw [encode_cons, List.take_append_of_le_length (Nat.le_of_lt short), encode_nil,
          List.nil_append]
      · obtain ⟨front, tail, ahead, taken, wide⟩ := ih (n - (encodeChar x).length)
        refine ⟨x :: front, tail, List.cons_prefix_cons.mpr ⟨rfl, ahead⟩, ?_, wide⟩
        rw [encode_cons, List.take_append, List.take_of_length_le (by omega), taken, encode_cons,
          List.append_assoc]

/-- A byte of ASCII in written text is one of its characters. -/
theorem mem_of_encode {text : List Char} {byte : Nat} (ascii : byte < 0x80)
    (member : byte ∈ encode text) : ∃ x ∈ text, x.toNat = byte := by
  obtain ⟨x, among, inside⟩ := List.mem_flatMap.mp member
  refine ⟨x, among, ?_⟩
  rw [encodeChar_eq] at inside
  split_ifs at inside
  · exact (List.mem_singleton.mp inside).symm
  all_goals
    simp only [List.mem_cons, List.not_mem_nil, or_false] at inside
    omega

end Characters

end AdCoder.Foundation.Utf8
