import AdCoder.BackgroundRuns.Manager

/-!
# Laws of wake windows

What a list of windows says of one window is how many events it counts and
whether it was handled. The union of two lists says what either of them says,
and an event lands in a window that is not handled.
-/

namespace AdCoder.BackgroundRuns

/-! ## Windows counted and handled elsewhere -/

/-- Every window of one list is a window of the other that counts at least its events. -/
def Counted (a b : List WakeEntry) : Prop := ∀ w ∈ a, ∃ v ∈ b, v.key = w.key ∧ w.count ≤ v.count

/-- Every handled window of one list is handled in the other. -/
def HandledIn (a b : List WakeEntry) : Prop :=
  ∀ w ∈ a, w.handled = true → ∃ v ∈ b, v.key = w.key ∧ v.handled = true

variable {a b c : List WakeEntry} {w : WakeEntry}

theorem Counted.of_subset (h : a ⊆ b) : Counted a b := fun w hw => ⟨w, h hw, rfl, Nat.le_refl _⟩

theorem Counted.trans (first : Counted a b) (next : Counted b c) : Counted a c := by
  intro w hw
  obtain ⟨v, hv, key, count⟩ := first w hw
  obtain ⟨u, hu, key', count'⟩ := next v hv
  exact ⟨u, hu, key'.trans key, Nat.le_trans count count'⟩

theorem HandledIn.of_subset (h : a ⊆ b) : HandledIn a b := fun w hw handled => ⟨w, h hw, rfl, handled⟩

theorem HandledIn.trans (first : HandledIn a b) (next : HandledIn b c) : HandledIn a c := by
  intro w hw handled
  obtain ⟨v, hv, key, handled⟩ := first w hw handled
  obtain ⟨u, hu, key', handled⟩ := next v hv handled
  exact ⟨u, hu, key'.trans key, handled⟩

/-! ## Union -/

theorem foldl_max_le {f : WakeEntry → Nat} {others : List WakeEntry} {start bound : Nat} :
    others.foldl (fun most v => max most (f v)) start ≤ bound ↔
      start ≤ bound ∧ ∀ v ∈ others, f v ≤ bound := by
  induction others generalizing start with
  | nil => simp
  | cons v rest ih => simp [ih, Nat.max_le, and_assoc]

theorem foldl_min_of_eq {f : WakeEntry → Nat} {others : List WakeEntry} {start : Nat}
    (same : ∀ v ∈ others, f v = start) :
    others.foldl (fun least v => min least (f v)) start = start := by
  induction others with
  | nil => rfl
  | cons v rest ih =>
      have head : f v = start := same v (by simp)
      simp only [List.foldl_cons, head, Nat.min_self]
      exact ih fun u hu => same u (by simp [hu])

/-- The observations of a window, and what their union says. -/
structure Joins (all : List WakeEntry) (w : WakeEntry) : Prop where
  found : ∃ v ∈ all, v.key = w.key
  count : ∀ v ∈ all, v.key = w.key → v.count ≤ w.count
  lastAt : ∀ v ∈ all, v.key = w.key → v.lastAt ≤ w.lastAt
  handled : w.handled = true ↔ ∃ v ∈ all, v.key = w.key ∧ v.handled = true

theorem joins_of_joinAt {all : List WakeEntry} {key : WakeKind × Nat}
    (h : joinAt all key = some w) : w.key = key ∧ Joins all w := by
  unfold joinAt at h
  split at h
  · cases h
  · rename_i first others found
    cases h
    have mem (v : WakeEntry) : v ∈ all ∧ v.key = key ↔ v = first ∨ v ∈ others := by
      rw [← List.mem_cons, ← found]
      simp
    have hfirst : first.key = key := ((mem first).mpr (.inl rfl)).2
    have least : (joinWindow first others).firstAt = first.firstAt := by
      refine foldl_min_of_eq fun v hv => ?_
      have := ((mem v).mpr (.inr hv)).2.trans hfirst.symm
      exact congrArg Prod.snd this
    have key_eq : (joinWindow first others).key = key := by
      rw [← hfirst]
      simp only [WakeEntry.key, least]
      rfl
    have counts := (foldl_max_le (f := WakeEntry.count)).mp (Nat.le_refl (joinWindow first others).count)
    have lasts := (foldl_max_le (f := WakeEntry.lastAt)).mp (Nat.le_refl (joinWindow first others).lastAt)
    refine ⟨key_eq, ?_, ?_, ?_, ?_⟩
    · exact ⟨first, ((mem first).mpr (.inl rfl)).1, hfirst.trans key_eq.symm⟩
    · intro v hv same
      rcases (mem v).mp ⟨hv, same.trans key_eq⟩ with rfl | other
      · exact counts.1
      · exact counts.2 v other
    · intro v hv same
      rcases (mem v).mp ⟨hv, same.trans key_eq⟩ with rfl | other
      · exact lasts.1
      · exact lasts.2 v other
    · rw [key_eq]
      simp only [joinWindow, Bool.or_eq_true, List.any_eq_true]
      constructor
      · rintro (handled | ⟨v, hv, handled⟩)
        · exact ⟨first, ((mem first).mpr (.inl rfl)).1, hfirst, handled⟩
        · exact ⟨v, ((mem v).mpr (.inr hv)).1, ((mem v).mpr (.inr hv)).2, handled⟩
      · rintro ⟨v, hv, same, handled⟩
        rcases (mem v).mp ⟨hv, same⟩ with rfl | other
        · exact .inl handled
        · exact .inr ⟨v, other, handled⟩

theorem exists_joinAt {all : List WakeEntry} (h : w ∈ all) : ∃ v, joinAt all w.key = some v := by
  unfold joinAt
  split
  · rename_i empty
    have : w ∈ all.filter fun v => v.key == w.key := by simpa using h
    rw [empty] at this
    cases this
  · exact ⟨_, rfl⟩

/-- A united window joins all observations of it. -/
theorem joins_of_mem (h : w ∈ mergeWindows a b) : Joins (a ++ b) w := by
  obtain ⟨key, -, joined⟩ := List.mem_filterMap.mp h
  exact (joins_of_joinAt joined).2

/-- Every observed window is united. -/
theorem exists_mem_mergeWindows (h : w ∈ a ++ b) :
    ∃ v ∈ mergeWindows a b, v.key = w.key ∧ Joins (a ++ b) v := by
  obtain ⟨v, joined⟩ := exists_joinAt h
  obtain ⟨key, joins⟩ := joins_of_joinAt joined
  refine ⟨v, List.mem_filterMap.mpr ⟨w.key, ?_, joined⟩, key, joins⟩
  exact List.mem_eraseDups.mpr (List.mem_map_of_mem h)

theorem counted_merge : Counted (a ++ b) (mergeWindows a b) := by
  intro w hw
  obtain ⟨v, hv, key, joins⟩ := exists_mem_mergeWindows hw
  exact ⟨v, hv, key, joins.count w hw key.symm⟩

theorem handledIn_merge : HandledIn (a ++ b) (mergeWindows a b) := by
  intro w hw handled
  obtain ⟨v, hv, key, joins⟩ := exists_mem_mergeWindows hw
  exact ⟨v, hv, key, joins.handled.mpr ⟨w, hw, key.symm, handled⟩⟩

/-! ## Landing -/

/-- The last unhandled window of the kind. -/
def lastOpen (kind : WakeKind) : List WakeEntry → Option WakeEntry
  | [] => none
  | w :: rest =>
      match lastOpen kind rest with
      | some v => some v
      | none => if w.kind = kind ∧ w.handled = false then some w else none

/-- The window in which an event of the kind lands, with that event. -/
def landing (kind : WakeKind) (now : Nat) (entries : List WakeEntry) : WakeEntry :=
  match lastOpen kind entries with
  | some w => { w with lastAt := now, count := w.count + 1 }
  | none => openWindow kind now

theorem lastOpen_spec {kind : WakeKind} {entries : List WakeEntry}
    (h : lastOpen kind entries = some w) : w ∈ entries ∧ w.kind = kind ∧ w.handled = false := by
  induction entries with
  | nil => cases h
  | cons v rest ih =>
      simp only [lastOpen] at h
      split at h
      · rename_i found
        obtain ⟨hmem, hopen⟩ := ih (found.trans h)
        exact ⟨List.mem_cons_of_mem v hmem, hopen⟩
      · split at h
        · cases h
          exact ⟨List.mem_cons_self, ‹_›⟩
        · cases h

theorem landing_spec (kind : WakeKind) (now : Nat) (entries : List WakeEntry) :
    (landing kind now entries).kind = kind ∧ (landing kind now entries).handled = false ∧
      (landing kind now entries).lastAt = now := by
  unfold landing
  split
  · rename_i w found
    obtain ⟨-, kind_eq, unhandled⟩ := lastOpen_spec found
    exact ⟨kind_eq, unhandled, rfl⟩
  · exact ⟨rfl, rfl, rfl⟩

/-- Extending finds the last unhandled window and replaces it. -/
theorem extendLast_spec (kind : WakeKind) (now : Nat) (entries : List WakeEntry) :
    match extendLast kind now entries with
    | none => lastOpen kind entries = none
    | some extended => ∃ w, lastOpen kind entries = some w ∧
        landing kind now entries ∈ extended ∧
        ∀ v ∈ extended, v ∈ entries ∨ v = landing kind now entries := by
  induction entries with
  | nil => rfl
  | cons w rest ih =>
      cases extended : extendLast kind now rest with
      | some entries' =>
          rw [extended] at ih
          obtain ⟨v, found, lands, known⟩ := ih
          have same : landing kind now (w :: rest) = landing kind now rest := by
            simp [landing, lastOpen, found]
          simp only [extendLast, extended, lastOpen, found, same]
          refine ⟨v, rfl, List.mem_cons_of_mem w lands, fun u hu => ?_⟩
          rcases List.mem_cons.mp hu with rfl | hu
          · exact .inl List.mem_cons_self
          · exact (known u hu).imp_left (List.mem_cons_of_mem w)
      | none =>
          rw [extended] at ih
          by_cases isOpen : w.kind = kind ∧ w.handled = false
          · have lands : landing kind now (w :: rest) =
                { w with lastAt := now, count := w.count + 1 } := by
              simp [landing, lastOpen, show lastOpen kind rest = none from ih, isOpen]
            simp only [extendLast, extended, lastOpen, show lastOpen kind rest = none from ih,
              isOpen, and_self, reduceIte, lands]
            refine ⟨w, rfl, List.mem_cons_self, fun u hu => ?_⟩
            rcases List.mem_cons.mp hu with rfl | hu
            · exact .inr rfl
            · exact .inl (List.mem_cons_of_mem w hu)
          · simp only [extendLast, extended, lastOpen, show lastOpen kind rest = none from ih,
              isOpen, reduceIte]

theorem mem_of_mem_dropHandled {n : Nat} {entries : List WakeEntry}
    (h : w ∈ dropHandled n entries) : w ∈ entries := by
  induction n, entries using dropHandled.induct with
  | case1 entries => simpa [dropHandled] using h
  | case2 n => simp [dropHandled] at h
  | case3 n v rest handled ih =>
      simp only [dropHandled, handled, reduceIte] at h
      exact List.mem_cons_of_mem v (ih h)
  | case4 n v rest unhandled ih =>
      simp only [dropHandled, unhandled, Bool.false_eq_true, reduceIte, List.mem_cons] at h
      exact List.mem_cons.mpr (h.imp_right ih)

theorem mem_dropHandled {n : Nat} {entries : List WakeEntry} (h : w ∈ entries)
    (unhandled : w.handled = false) : w ∈ dropHandled n entries := by
  induction n, entries using dropHandled.induct with
  | case1 entries => simpa [dropHandled] using h
  | case2 n => cases h
  | case3 n v rest handled ih =>
      simp only [dropHandled, handled, reduceIte]
      rcases List.mem_cons.mp h with rfl | h
      · simp [unhandled] at handled
      · exact ih h
  | case4 n v rest kept ih =>
      simp only [dropHandled, kept, Bool.false_eq_true, reduceIte, List.mem_cons]
      exact (List.mem_cons.mp h).imp_right ih

/-- An event lands in its window, and no window but that one is new. -/
theorem coalesceWindow_spec (limit : Nat) (kind : WakeKind) (now : Nat)
    (entries : List WakeEntry) :
    landing kind now entries ∈ coalesceWindow limit kind now entries ∧
      ∀ v ∈ coalesceWindow limit kind now entries, v ∈ entries ∨ v = landing kind now entries := by
  have spec := extendLast_spec kind now entries
  unfold coalesceWindow
  split
  · rename_i extended h
    rw [h] at spec
    obtain ⟨-, -, lands, known⟩ := spec
    exact ⟨lands, known⟩
  · rename_i h
    rw [h] at spec
    have lands : landing kind now entries = openWindow kind now := by
      simp [landing, show lastOpen kind entries = none from spec]
    have opened (v : WakeEntry) : v ∈ entries ++ [openWindow kind now] ↔
        v ∈ entries ∨ v = landing kind now entries := by simp [lands]
    simp only [evictHandled]
    split
    · exact ⟨mem_dropHandled ((opened _).mpr (.inr rfl)) (landing_spec kind now entries).2.1,
        fun v hv => (opened v).mp (mem_of_mem_dropHandled hv)⟩
    · exact ⟨(opened _).mpr (.inr rfl), fun v hv => (opened v).mp hv⟩

/-! ## Marking -/

section Marking

variable {now : Nat} {marks : Marks} {entries : List WakeEntry}

/-- A marked window is the window before, handled or not. -/
theorem mem_handle (h : w ∈ marks.handle now entries) :
    ∃ v ∈ entries, v.key = w.key ∧ v.count = w.count ∧ v.lastAt = w.lastAt ∧
      (w.handled = true → v.handled = true ∨ marks.covers v = true) := by
  obtain ⟨v, hv, rfl⟩ := List.mem_map.mp h
  refine ⟨v, hv, ?_⟩
  split
  · rename_i covered
    exact ⟨rfl, rfl, rfl, fun _ => .inr (Bool.and_eq_true_iff.mp covered).1⟩
  · exact ⟨rfl, rfl, rfl, .inl⟩

theorem exists_mem_handle (now : Nat) (marks : Marks) (h : w ∈ entries) :
    ∃ v ∈ marks.handle now entries, v.key = w.key ∧ v.count = w.count ∧ v.lastAt = w.lastAt ∧
      (w.handled = true → v.handled = true) := by
  refine ⟨_, List.mem_map_of_mem h, ?_⟩
  split
  · exact ⟨rfl, rfl, rfl, fun _ => rfl⟩
  · exact ⟨rfl, rfl, rfl, id⟩

theorem counted_handle : Counted entries (marks.handle now entries) := by
  intro w hw
  obtain ⟨v, hv, key, count, -⟩ := exists_mem_handle now marks hw
  exact ⟨v, hv, key, Nat.le_of_eq count.symm⟩

theorem handledIn_handle : HandledIn entries (marks.handle now entries) := by
  intro w hw handled
  obtain ⟨v, hv, key, -, -, still⟩ := exists_mem_handle now marks hw
  exact ⟨v, hv, key, still handled⟩

theorem counted_of_handle : Counted (marks.handle now entries) entries := by
  intro w hw
  obtain ⟨v, hv, key, count, -⟩ := mem_handle hw
  exact ⟨v, hv, key, Nat.le_of_eq count.symm⟩

end Marking

end AdCoder.BackgroundRuns
