import AdCoder.Foundation.Utf16

/-!
# Bounded continuation texts

`truncateContinuationUtf8` cuts a text to a number of bytes in UTF-8. The cut is looked
for in code units and then backs off from a surrogate in front of it, so it is found
again here as a number of whole code points.
-/

namespace AdCoder.Conversation

open Foundation.Utf16

/-- `"… [truncated]"`. -/
def marker : List CodeUnit :=
  [0x2026, 0x20, 0x5b, 0x74, 0x72, 0x75, 0x6e, 0x63, 0x61, 0x74, 0x65, 0x64, 0x5d]

structure TruncatedText where
  value : List CodeUnit
  truncated : Bool
  deriving DecidableEq

/-- `while (end > 0 && Buffer.byteLength(value.slice(0, end)) > room) end--`. -/
def fitEnd (value : List CodeUnit) (room : Nat) : Nat → Nat
  | 0 => 0
  | stop + 1 =>
      if room < byteLength (value.take (stop + 1)) then fitEnd value room stop else stop + 1

/-- The loop that moves the end away from high surrogates. -/
def backOff (value : List CodeUnit) : Nat → Nat
  | 0 => 0
  | stop + 1 => if value[stop]?.any isHigh then backOff value stop else stop + 1

def truncateContinuationUtf8 (value : List CodeUnit) (maxBytes : Nat) : TruncatedText :=
  if byteLength value ≤ maxBytes then ⟨value, false⟩
  else if maxBytes < byteLength marker then ⟨List.replicate maxBytes 0x2e, true⟩
  else
    let room := maxBytes - byteLength marker
    let stop := backOff value (fitEnd value room (min value.length room))
    ⟨(value.take stop ++ marker).take maxBytes, true⟩

/-! ## What a truncation promises -/

/-- A truncated text holds whole code points, and at most one more would fit. -/
structure Truncates (value : List CodeUnit) (maxBytes : Nat) (out : TruncatedText) : Prop where
  bounded : byteLength out.value ≤ maxBytes
  kept : out.truncated = false ↔ byteLength value ≤ maxBytes
  whole : out.value = value ↔ byteLength value ≤ maxBytes
  cut : maxBytes < byteLength value → byteLength marker ≤ maxBytes →
    ∃ k, k ≤ (points value).length ∧
      out.value = ((points value).take k).flatten ++ marker ∧
      ∀ j ≤ (points value).length,
        byteLength (((points value).take j).flatten ++ marker) ≤ maxBytes → j ≤ k + 1

/-- The code points at the front that fit in the room. -/
def fitting : Nat → List (List CodeUnit) → List (List CodeUnit)
  | _, [] => []
  | room, point :: rest =>
      if pointBytes point ≤ room then point :: fitting (room - pointBytes point) rest else []

/-- Two unpaired high surrogates at the end. -/
def EndsInLoneHighs (text : List (List CodeUnit)) : Prop :=
  ∃ front first second, text = front ++ [[first], [second]] ∧ isHigh first = true ∧
    isHigh second = true

/-- The text is cut right behind two unpaired high surrogates. -/
def CutsLoneHighs (value : List CodeUnit) (maxBytes : Nat) : Prop :=
  maxBytes < byteLength value ∧ byteLength marker ≤ maxBytes ∧
    EndsInLoneHighs (fitting (maxBytes - byteLength marker) (points value))

/-! ## The fitting code points -/

section Fitting

variable {room : Nat} {ps : List (List CodeUnit)}

theorem fitting_eq_take (room : Nat) (ps : List (List CodeUnit)) :
    fitting room ps = ps.take (fitting room ps).length := by
  induction ps generalizing room with
  | nil => rfl
  | cons point rest ih =>
      unfold fitting
      split_ifs with fits
      · rw [List.length_cons, List.take_succ_cons, ← ih]
      · rfl

theorem length_fitting_le (room : Nat) (ps : List (List CodeUnit)) :
    (fitting room ps).length ≤ ps.length := by
  rw [fitting_eq_take]
  exact List.length_take_le' _ _

theorem sum_fitting_le (room : Nat) (ps : List (List CodeUnit)) :
    ((fitting room ps).map pointBytes).sum ≤ room := by
  induction ps generalizing room with
  | nil => exact Nat.zero_le _
  | cons point rest ih =>
      unfold fitting
      split_ifs with fits
      · rw [List.map_cons, List.sum_cons]
        have more := ih (room - pointBytes point)
        omega
      · exact Nat.zero_le _

/-- The code point after the fitting ones does not fit. -/
theorem fitting_next {point : List CodeUnit} (next : ps[(fitting room ps).length]? = some point) :
    room < ((fitting room ps).map pointBytes).sum + pointBytes point := by
  induction ps generalizing room with
  | nil => cases next
  | cons first rest ih =>
      unfold fitting at next ⊢
      split_ifs at next ⊢ with fits
      · rw [List.length_cons, List.getElem?_cons_succ] at next
        have more := ih next
        rw [List.map_cons, List.sum_cons]
        omega
      · obtain rfl : first = point := by simpa using next
        simpa using fits

end Fitting

/-! ## The end of the cut -/

section Cut

variable {value : List CodeUnit} {room : Nat}

theorem fitEnd_le (value : List CodeUnit) (room start : Nat) :
    fitEnd value room start ≤ start := by
  induction start with
  | zero => exact Nat.le_refl _
  | succ start ih =>
      unfold fitEnd
      split_ifs
      · exact ih.trans (Nat.le_succ _)
      · exact Nat.le_refl _

theorem byteLength_fitEnd (value : List CodeUnit) (room start : Nat) :
    byteLength (value.take (fitEnd value room start)) ≤ room := by
  induction start with
  | zero => simp [fitEnd]
  | succ start ih =>
      unfold fitEnd
      split_ifs with exceeds
      · exact ih
      · exact Nat.not_lt.mp exceeds

theorem le_fitEnd {stop start : Nat} (le : stop ≤ start)
    (fits : byteLength (value.take stop) ≤ room) : stop ≤ fitEnd value room start := by
  induction start with
  | zero => exact le
  | succ start ih =>
      unfold fitEnd
      split_ifs with exceeds
      · apply ih
        by_contra above
        obtain rfl : stop = start + 1 := by omega
        omega
      · exact le

theorem backOff_le (value : List CodeUnit) (start : Nat) : backOff value start ≤ start := by
  induction start with
  | zero => exact Nat.le_refl _
  | succ start ih =>
      unfold backOff
      split_ifs
      · exact ih.trans (Nat.le_succ _)
      · exact Nat.le_refl _

theorem byteLength_flatten_take (value : List CodeUnit) (k : Nat) :
    byteLength ((points value).take k).flatten = (((points value).take k).map pointBytes).sum := by
  rw [byteLength, (points_take value k).1]

theorem flatten_take_isPrefix (value : List CodeUnit) (k : Nat) :
    ((points value).take k).flatten <+: value :=
  ⟨((points value).drop k).flatten, by
    rw [← List.flatten_append, List.take_append_drop, flatten_points]⟩

theorem take_flatten_take (value : List CodeUnit) (k : Nat) :
    value.take ((points value).take k).flatten.length = ((points value).take k).flatten := by
  exact (List.prefix_iff_eq_take.mp (flatten_take_isPrefix value k)).symm

/-- The units before an end are whole code points, or these and the front of a pair. -/
theorem backOff_fitEnd (value : List CodeUnit) (room : Nat) :
    backOff value (fitEnd value room (min value.length room)) =
      backOff value (fitting room (points value)).flatten.length := by
  set K := (fitting room (points value)).length with hK
  have fit : fitting room (points value) = (points value).take K := fitting_eq_take _ _
  have cut := take_flatten_take value K
  have size : byteLength ((points value).take K).flatten ≤ room := by
    rw [byteLength_flatten_take, ← fit]
    exact sum_fitting_le _ _
  rw [fit]
  set L := ((points value).take K).flatten.length with hL
  have lower : L ≤ fitEnd value room (min value.length room) := by
    apply le_fitEnd
    · apply le_min
      · have within := congrArg List.length cut
        rw [List.length_take] at within
        omega
      · exact (length_le_byteLength _).trans size
    · rw [cut]
      exact size
  cases next : (points value)[K]? with
  | none =>
      have all : (points value).take K = points value :=
        List.take_of_length_le (List.getElem?_eq_none_iff.mp next)
      have end_eq : L = value.length := by rw [hL, all, flatten_points]
      have upper := (fitEnd_le value room (min value.length room)).trans (min_le_left _ _)
      rw [show fitEnd value room (min value.length room) = L by omega]
  | some point =>
      have exceeds := fitting_next (hK ▸ next)
      rw [fit, ← byteLength_flatten_take] at exceeds
      -- The fitting code points and the next one are the first units of the text.
      have longer : value.take (L + point.length) = ((points value).take K).flatten ++ point := by
        have more := take_flatten_take value (K + 1)
        rw [List.take_add_one, next] at more
        simpa [hL] using more
      have bytes : byteLength (((points value).take K).flatten ++ point) =
          byteLength ((points value).take K).flatten + pointBytes point := by
        have more := byteLength_flatten_take value (K + 1)
        rw [List.take_add_one, next] at more
        rw [List.map_append, List.sum_append, ← byteLength_flatten_take, List.flatten_append] at more
        simpa using more
      have upper : fitEnd value room (min value.length room) < L + point.length := by
        by_contra above
        have within := byteLength_fitEnd value room (min value.length room)
        have mono := byteLength_take_le value (Nat.not_lt.mp above)
        rw [longer, bytes] at mono
        omega
      obtain ⟨unit, rfl⟩ | ⟨first, second, rfl, high, _⟩ :=
        mem_points (List.mem_of_getElem? next)
      · rw [List.length_singleton] at upper
        rw [show fitEnd value room (min value.length room) = L by omega]
      · have close : L + [first, second].length = L + 2 := rfl
        by_cases same : fitEnd value room (min value.length room) = L
        · rw [same]
        · rw [show fitEnd value room (min value.length room) = L + 1 by omega]
          have here : value[L]? = some first := by
            rw [← List.take_append_drop (L + [first, second].length) value, longer]
            simp [hL]
          rw [backOff, here, Option.any_some, if_pos high]

/-- Backing off from whole code points gives up the unpaired high surrogates at their end. -/
theorem backOff_flatten {ps : List (List CodeUnit)} (rest : List CodeUnit)
    (shaped : ∀ point ∈ ps, (∃ unit, point = [unit]) ∨
      ∃ first second, point = [first, second] ∧ isHigh first = true ∧ isLow second = true) :
    backOff (ps.flatten ++ rest) ps.flatten.length =
      (ps.rdropWhile loneHigh).flatten.length := by
  induction ps using List.reverseRecOn generalizing rest with
  | nil => rfl
  | append_singleton front point ih =>
      have before := ih (point ++ rest) fun p mem => shaped p (List.mem_append_left _ mem)
      rw [List.flatten_append, List.flatten_singleton, List.append_assoc]
      obtain ⟨unit, rfl⟩ | ⟨first, second, rfl, _, low⟩ :=
        shaped point (List.mem_append_right _ List.mem_cons_self)
      · have here : (front.flatten ++ ([unit] ++ rest))[front.flatten.length]? =
            some unit := by simp
        rw [List.length_append, List.length_singleton, backOff, here, Option.any_some]
        by_cases high : isHigh unit = true
        · rw [if_pos high, before, List.rdropWhile_concat_pos _ _ _ (by simpa [loneHigh])]
        · rw [if_neg high, List.rdropWhile_concat_neg _ _ _ (by simpa [loneHigh] using high)]
          simp
      · have here : (front.flatten ++ ([first, second] ++ rest))[
            front.flatten.length + 1]? = some second := by simp
        rw [List.length_append, show [first, second].length = 1 + 1 from rfl, ← Nat.add_assoc,
          backOff, here, Option.any_some, isHigh_of_isLow low, if_neg Bool.false_ne_true,
          List.rdropWhile_concat_neg _ _ _ (by simp [loneHigh])]
        simp

/-- The cut keeps the fitting code points, without the unpaired high surrogates at their end. -/
theorem take_backOff (value : List CodeUnit) (room : Nat) :
    value.take (backOff value (fitEnd value room (min value.length room))) =
      ((fitting room (points value)).rdropWhile loneHigh).flatten := by
  rw [backOff_fitEnd]
  have fit := fitting_eq_take room (points value)
  have shaped : ∀ point ∈ fitting room (points value), (∃ unit, point = [unit]) ∨
      ∃ first second, point = [first, second] ∧ isHigh first = true ∧ isLow second = true := by
    intro point mem
    rw [fit] at mem
    exact mem_points (List.mem_of_mem_take mem)
  have whole : value = (fitting room (points value)).flatten ++
      ((points value).drop (fitting room (points value)).length).flatten := by
    conv_lhs => rw [← flatten_points value, ← List.take_append_drop
      (fitting room (points value)).length (points value), List.flatten_append, ← fit]
  have back := backOff_flatten
    ((points value).drop (fitting room (points value)).length).flatten shaped
  rw [← whole] at back
  have front : ((fitting room (points value)).rdropWhile loneHigh).flatten <+: value := by
    obtain ⟨dropped, split⟩ := List.rdropWhile_prefix loneHigh (fitting room (points value))
    refine ⟨dropped.flatten ++
      ((points value).drop (fitting room (points value)).length).flatten, ?_⟩
    rw [← List.append_assoc, ← List.flatten_append, split]
    exact whole.symm
  rw [back]
  exact (List.prefix_iff_eq_take.mp front).symm

end Cut

/-! ## The exact promise -/

theorem length_le_fitting_iff {room j : Nat} {ps : List (List CodeUnit)} (le : j ≤ ps.length) :
    ((ps.take j).map pointBytes).sum ≤ room ↔ j ≤ (fitting room ps).length := by
  induction ps generalizing room j with
  | nil => simp_all
  | cons point rest ih =>
      cases j with
      | zero => simp
      | succ j =>
          have more := @ih (room - pointBytes point) j (Nat.le_of_succ_le_succ le)
          rw [List.take_succ_cons, List.map_cons, List.sum_cons]
          unfold fitting
          split_ifs with fits
          · rw [List.length_cons, Nat.add_le_add_iff_right, ← more]
            omega
          · rw [List.length_nil]
            omega

theorem byteLength_marked {text : List CodeUnit} :
    byteLength (text ++ marker) = byteLength text + byteLength marker := by
  apply byteLength_append
  have first : isLow 0x2026 = false := by decide
  simp [splitsPair, marker, first]

/-- More than one code point is given up exactly behind two unpaired high surrogates. -/
theorem length_rdropWhile_loneHigh (ps : List (List CodeUnit)) :
    ps.length ≤ (ps.rdropWhile loneHigh).length + 1 ↔ ¬EndsInLoneHighs ps := by
  induction ps using List.reverseRecOn with
  | nil =>
      constructor
      · rintro - ⟨front, first, second, split, -⟩
        cases front <;> cases split
      · simp
  | append_singleton before last _ =>
      by_cases lone : loneHigh last = true
      · rw [List.rdropWhile_concat_pos _ _ _ lone, List.length_append, List.length_singleton,
          Nat.add_le_add_iff_right]
        obtain ⟨unit, rfl⟩ : ∃ unit, last = [unit] := by
          unfold loneHigh at lone
          split at lone
          · exact ⟨_, rfl⟩
          · cases lone
        constructor
        · rintro short ⟨front, first, second, split, high, -⟩
          have pieces : before = front ++ [[first]] ∧ [unit] = [second] := by
            have regroup : before ++ [[unit]] = (front ++ [[first]]) ++ [[second]] := by
              simpa using split
            obtain ⟨same, ends⟩ := List.append_inj' regroup rfl
            exact ⟨same, (List.cons.inj ends).1⟩
          rw [pieces.1, List.rdropWhile_concat_pos _ _ _ (by simpa [loneHigh] using high)] at short
          have le := (List.rdropWhile_prefix loneHigh front).length_le
          simp at short
          omega
        · intro apart
          induction before using List.reverseRecOn with
          | nil => exact Nat.le_refl _
          | append_singleton front point _ =>
              rw [List.rdropWhile_concat_neg]
              intro high
              obtain ⟨first, rfl⟩ : ∃ first, point = [first] := by
                unfold loneHigh at high
                split at high
                · exact ⟨_, rfl⟩
                · cases high
              exact apart ⟨front, first, unit, by simp, high, lone⟩
      · rw [List.rdropWhile_concat_neg _ _ _ lone]
        constructor
        · rintro - ⟨front, first, second, split, -, high⟩
          have regroup : before ++ [last] = (front ++ [[first]]) ++ [[second]] := by
            simpa using split
          obtain ⟨-, ends⟩ := List.append_inj' regroup rfl
          rw [(List.cons.inj ends).1] at lone
          exact lone high
        · intro _
          exact Nat.le_succ _

theorem byteLength_dots (count : Nat) : byteLength (List.replicate count 0x2e) = count := by
  induction count with
  | zero => rfl
  | succ count ih =>
      have plain : isHigh 0x2e = false := by decide
      have apart : splitsPair [0x2e] (List.replicate count 0x2e) = false := by
        simp [splitsPair, plain]
      have one : unitBytes 0x2e = 1 := by decide
      rw [List.replicate_succ, ← List.singleton_append, byteLength_append apart, ih,
        byteLength_singleton, one, Nat.add_comm]

/-- The fitting code points that are kept, behind which the marker stands. -/
theorem truncateContinuationUtf8_cut {value : List CodeUnit} {maxBytes : Nat}
    (long : maxBytes < byteLength value) (room : byteLength marker ≤ maxBytes) :
    truncateContinuationUtf8 value maxBytes =
      ⟨((fitting (maxBytes - byteLength marker) (points value)).rdropWhile loneHigh).flatten ++
        marker, true⟩ ∧
    byteLength (((fitting (maxBytes - byteLength marker) (points value)).rdropWhile
      loneHigh).flatten ++ marker) ≤ maxBytes := by
  have bytes : byteLength (((fitting (maxBytes - byteLength marker) (points value)).rdropWhile
      loneHigh).flatten ++ marker) ≤ maxBytes := by
    rw [byteLength_marked, ← take_backOff]
    have back := byteLength_fitEnd value (maxBytes - byteLength marker)
      (min value.length (maxBytes - byteLength marker))
    have mono := byteLength_take_le value (backOff_le value
      (fitEnd value (maxBytes - byteLength marker)
        (min value.length (maxBytes - byteLength marker))))
    omega
  refine ⟨?_, bytes⟩
  simp only [truncateContinuationUtf8]
  rw [if_neg (Nat.not_le.mpr long), if_neg (Nat.not_lt.mpr room), take_backOff,
    List.take_of_length_le ((length_le_byteLength _).trans bytes)]

/-- A text is truncated as promised exactly when it is not cut behind two unpaired high
surrogates, which are both given up. -/
theorem truncates_iff (value : List CodeUnit) (maxBytes : Nat) :
    Truncates value maxBytes (truncateContinuationUtf8 value maxBytes) ↔
      ¬CutsLoneHighs value maxBytes := by
  by_cases fits : byteLength value ≤ maxBytes
  · have out : truncateContinuationUtf8 value maxBytes = ⟨value, false⟩ := if_pos fits
    rw [out]
    constructor
    · rintro - ⟨long, -⟩
      omega
    · intro _
      exact ⟨fits, iff_of_true rfl fits, iff_of_true rfl fits, fun long => by omega⟩
  · have long := Nat.not_le.mp fits
    by_cases small : maxBytes < byteLength marker
    · have out : truncateContinuationUtf8 value maxBytes =
          ⟨List.replicate maxBytes 0x2e, true⟩ := by
        rw [truncateContinuationUtf8, if_neg fits, if_pos small]
      rw [out]
      constructor
      · rintro - ⟨-, room, -⟩
        omega
      · intro _
        refine ⟨(byteLength_dots maxBytes).le, iff_of_false (by simp) fits, ?_, fun _ room => by omega⟩
        refine iff_of_false (fun same => ?_) fits
        rw [← same, byteLength_dots] at fits
        exact fits (Nat.le_refl _)
    · have room := Nat.not_lt.mp small
      obtain ⟨out, bytes⟩ := truncateContinuationUtf8_cut long room
      rw [out]
      generalize hfit : fitting (maxBytes - byteLength marker) (points value) = ps at out bytes ⊢
      have front : ps = (points value).take ps.length := by
        rw [← hfit]
        exact fitting_eq_take _ _
      have count : ps.length ≤ (points value).length := by
        rw [← hfit]
        exact length_fitting_le _ _
      have le : (ps.rdropWhile loneHigh).length ≤ ps.length :=
        (List.rdropWhile_prefix loneHigh ps).length_le
      have kept : ps.rdropWhile loneHigh =
          (points value).take (ps.rdropWhile loneHigh).length := by
        have inner := List.prefix_iff_eq_take.mp (List.rdropWhile_prefix loneHigh ps)
        rw [front, List.take_take, min_eq_left] at inner
        · rw [← front] at inner
          exact inner
        · rw [← front]
          exact le
      have fitsAt {j : Nat} (within : j ≤ (points value).length) :
          byteLength (((points value).take j).flatten ++ marker) ≤ maxBytes ↔ j ≤ ps.length := by
        rw [byteLength_marked, byteLength_flatten_take, ← hfit, ← length_le_fitting_iff within]
        omega
      constructor
      · rintro ⟨-, -, -, cut⟩ ⟨-, -, ends⟩
        obtain ⟨k, hk, same, most⟩ := cut long room
        have texts := congrArg points (List.append_cancel_right same)
        rw [kept, (points_take value _).1, (points_take value _).1] at texts
        have lengths := congrArg List.length texts
        rw [List.length_take, List.length_take, min_eq_left (le.trans count), min_eq_left hk]
          at lengths
        refine (length_rdropWhile_loneHigh ps).mp ?_ (hfit ▸ ends)
        rw [lengths]
        exact most _ count ((fitsAt count).mpr (Nat.le_refl _))
      · intro apart
        have short := (length_rdropWhile_loneHigh ps).mpr fun ends =>
          apart ⟨long, room, hfit.symm ▸ ends⟩
        refine ⟨bytes, iff_of_false (by simp) fits, iff_of_false (fun same => ?_) fits, ?_⟩
        · rw [← same] at fits
          exact fits bytes
        · intro _ _
          exact ⟨(ps.rdropWhile loneHigh).length, le.trans count, by rw [← kept],
            fun j within fit => ((fitsAt within).mp fit).trans short⟩

/-- Two unpaired high surrogates and a long text: both would fit in front of the marker. -/
theorem truncates_refuted :
    ¬Truncates ([0xd800, 0xd800] ++ List.replicate 20 0x61) 21
      (truncateContinuationUtf8 ([0xd800, 0xd800] ++ List.replicate 20 0x61) 21) := by
  intro truncates
  obtain ⟨k, hk, same, most⟩ := truncates.cut (by decide) (by decide)
  have out : truncateContinuationUtf8 ([0xd800, 0xd800] ++ List.replicate 20 0x61) 21 =
      ⟨marker, true⟩ := by decide
  have two := most 2 (by decide) (by decide)
  rw [out] at same
  have nothing := congrArg points (List.self_eq_append_left.mp same)
  rw [(points_take _ k).1, points_nil] at nothing
  have lengths := congrArg List.length nothing
  rw [List.length_take, min_eq_left hk, List.length_nil] at lengths
  omega

end AdCoder.Conversation
