import AdCoder.Foundation.Sections

/-!
# What a section does to the value it holds

A section moves the held value: it writes successors of it and changes it in
memory. A triple says along which relation it writes, what it returns and how
it throws, all in terms of the value held before.
-/

namespace AdCoder.Foundation.Section

variable {σ ε α β : Type}

/-- A memory reached by writes along `W` and by changes in memory along `A`. -/
inductive Moves (W A : σ → σ → Prop) (m : Memory σ) : Memory σ → Prop
  | stay : Moves W A m m
  | write {n : Memory σ} {value : σ} (before : Moves W A m n) (admitted : n.admitted ≠ 0)
      (current : (n.file.map (·.version)).getD 0 = n.held.version) (allowed : W n.held.value value) :
      Moves W A m ⟨some ⟨n.held.version + 1, value⟩, ⟨n.held.version + 1, value⟩, n.admitted - 1⟩
  | assign {n : Memory σ} {value : σ} (before : Moves W A m n) (allowed : A n.held.value value) :
      Moves W A m { n with held := { n.held with value := value } }

namespace Moves

variable {W A : σ → σ → Prop} {m n k : Memory σ}

theorem trans (first : Moves W A m n) (second : Moves W A n k) : Moves W A m k := by
  induction second with
  | stay => exact first
  | write _ admitted current allowed ih => exact ih.write admitted current allowed
  | assign _ allowed ih => exact ih.assign allowed

theorem mono {W' A' : σ → σ → Prop} (h : Moves W A m n) (writes : ∀ s t, W s t → W' s t)
    (assigns : ∀ s t, A s t → A' s t) : Moves W' A' m n := by
  induction h with
  | stay => exact .stay
  | write _ admitted current allowed ih => exact ih.write admitted current (writes _ _ allowed)
  | assign _ allowed ih => exact ih.assign (assigns _ _ allowed)

/-- What writes and assignments keep holds of the held value. -/
theorem held {S : σ → Prop} (h : Moves W A m n) (writes : ∀ s t, S s → W s t → S t)
    (assigns : ∀ s t, S s → A s t → S t) (start : S m.held.value) : S n.held.value := by
  induction h with
  | stay => exact start
  | write _ _ _ allowed ih => exact writes _ _ ih allowed
  | assign _ allowed ih => exact assigns _ _ ih allowed

/-- What writes and assignments keep holds of all values in the memory. -/
theorem within {S : σ → Prop} (h : Moves W A m n) (writes : ∀ s t, S s → W s t → S t)
    (assigns : ∀ s t, S s → A s t → S t) (start : Within S m) : Within S n := by
  induction h with
  | stay => exact start
  | write _ _ _ allowed ih =>
      have next := writes _ _ ih.held allowed
      refine ⟨?_, next⟩
      intro stored hstored
      obtain rfl := Option.some.inj hstored
      exact next
  | assign _ allowed ih => exact ⟨ih.file, assigns _ _ ih.held allowed⟩

/-- Either nothing was written, or the file was current and holds what was written last. What
assignments leave alone tells the held value from the stored one no more than before. -/
theorem stored {τ : Type} {view : σ → τ} (h : Moves W A m n)
    (same : ∀ s t, A s t → view t = view s) :
    (n.file = m.file ∧ n.held.version = m.held.version ∧ view n.held.value = view m.held.value) ∨
      (m.file.map (·.version)).getD 0 = m.held.version ∧ m.held.version < n.held.version ∧
        ∃ stored, n.file = some stored ∧ stored.version = n.held.version ∧
          view stored.value = view n.held.value := by
  induction h with
  | stay => exact Or.inl ⟨rfl, rfl, rfl⟩
  | write _ _ current _ ih =>
      refine Or.inr ⟨?_, ?_, _, rfl, rfl, rfl⟩
      · rcases ih with ⟨file, version, -⟩ | ⟨current', _⟩
        · rw [← file, ← version]
          exact current
        · exact current'
      · rcases ih with ⟨-, version, -⟩ | ⟨-, later, -⟩
        · exact version ▸ Nat.lt_succ_self _
        · exact Nat.lt_succ_of_lt later
  | assign _ allowed ih =>
      rcases ih with ⟨file, version, viewed⟩ | ⟨current, later, stored, file, version, viewed⟩
      · exact Or.inl ⟨file, version, (same _ _ allowed).trans viewed⟩
      · exact Or.inr ⟨current, later, stored, file, version, viewed.trans (same _ _ allowed).symm⟩

end Moves

/-- A section that starts where `P` holds of the held value moves along `W` and `A`; what it
returns satisfies `Q` and what it throws `F`, each with the value held at the end. -/
def Meets (W A : σ → σ → Prop) (P : σ → Prop) (x : Section σ ε α) (Q : α → σ → Prop)
    (F : ε → σ → Prop) : Prop :=
  ∀ m, P m.held.value → Moves W A m (x.runOn m).2 ∧
    (∀ a, (x.runOn m).1 = .ok a → Q a (x.runOn m).2.held.value) ∧
    ∀ e, (x.runOn m).1 = .error e → F e (x.runOn m).2.held.value

namespace Meets

variable {W A : σ → σ → Prop} {P : σ → Prop} {Q : α → σ → Prop} {F : ε → σ → Prop}

theorem returns {a : α} (h : ∀ s, P s → Q a s) :
    Meets W A P (pure a : Section σ ε α) Q F := by
  intro m start
  refine ⟨.stay, ?_, ?_⟩
  · intro b hb
    obtain rfl : a = b := Except.ok.inj hb
    exact h _ start
  · intro e he
    cases he

theorem throws {error : ε} (h : ∀ s, P s → F error s) :
    Meets W A P (throw error : Section σ ε α) Q F := by
  intro m start
  refine ⟨.stay, ?_, ?_⟩
  · intro a ha
    cases ha
  · intro e he
    obtain rfl : error = e := Except.error.inj he
    exact h _ start

theorem bind {x : Section σ ε α} {f : α → Section σ ε β} {last : β → σ → Prop}
    (first : Meets W A P x Q F) (next : ∀ a, Meets W A (Q a) (f a) last F) :
    Meets W A P (x >>= f) last F := by
  intro m start
  obtain ⟨moved, returned, threw⟩ := first m start
  rw [runOn_bind]
  cases result : (x.runOn m).1 with
  | ok a =>
      obtain ⟨later, rest⟩ := next a _ (returned a result)
      exact ⟨moved.trans later, rest⟩
  | error e =>
      refine ⟨moved, ?_, ?_⟩
      · intro b hb
        cases hb
      · intro e' he'
        obtain rfl : e = e' := Except.error.inj he'
        exact threw e result

theorem weaken {P' : σ → Prop} {Q' : α → σ → Prop} {F' : ε → σ → Prop}
    {x : Section σ ε α} (h : Meets W A P x Q F) (before : ∀ s, P' s → P s)
    (after : ∀ a s, Q a s → Q' a s) (thrown : ∀ e s, F e s → F' e s) :
    Meets W A P' x Q' F' := by
  intro m start
  obtain ⟨moved, returned, threw⟩ := h m (before _ start)
  exact ⟨moved, fun a ha => after _ _ (returned a ha), fun e he => thrown _ _ (threw e he)⟩

theorem mono {W' A' : σ → σ → Prop} {x : Section σ ε α} (h : Meets W A P x Q F)
    (writes : ∀ s t, W s t → W' s t) (changes : ∀ s t, A s t → A' s t) : Meets W' A' P x Q F := by
  intro m start
  obtain ⟨moved, ended⟩ := h m start
  exact ⟨moved.mono writes changes, ended⟩

/-- Reading names the held value. -/
theorem reading {f : σ → Section σ ε α} (h : ∀ s, P s → Meets W A (· = s) (f s) Q F) :
    Meets W A P (read >>= f) Q F := by
  intro m start
  exact h m.held.value start m rfl

theorem saves {conflict refused : ε} {value : σ} (allowed : ∀ s, P s → W s value)
    (conflicts : ∀ s, P s → F conflict s) (refuses : ∀ s, P s → F refused s) :
    Meets W A P (save conflict refused value) (fun _ s => s = value) F := by
  intro m start
  rw [runOn, save]
  split_ifs with spent current
  · refine ⟨.stay, ?_, ?_⟩
    · intro _ h
      cases h
    · intro e he
      obtain rfl := Except.error.inj he
      exact refuses _ start
  · refine ⟨Moves.stay.write spent current (allowed _ start), fun _ _ => rfl, ?_⟩
    intro e he
    cases he
  · refine ⟨.stay, ?_, ?_⟩
    · intro _ h
      cases h
    · intro e he
      obtain rfl := Except.error.inj he
      exact conflicts _ start

theorem assigns {value : σ} (allowed : ∀ s, P s → A s value) :
    Meets W A P (assign value : Section σ ε Unit) (fun _ s => s = value) F := by
  intro m start
  refine ⟨Moves.stay.assign (allowed _ start), fun _ _ => rfl, ?_⟩
  intro e he
  cases he

theorem branch {c : Prop} [Decidable c] {x y : Section σ ε α}
    (yes : c → Meets W A P x Q F) (no : ¬ c → Meets W A P y Q F) :
    Meets W A P (if c then x else y) Q F := by
  split_ifs with h
  · exact yes h
  · exact no h

theorem forM {body : β → Section σ ε PUnit} {items : List β}
    (each : ∀ item ∈ items, Meets W A P (body item) (fun _ => P) F) :
    Meets W A P (items.forM body) (fun _ => P) F := by
  induction items with
  | nil => exact returns fun _ h => h
  | cons item rest ih =>
      exact (each item (by simp)).bind fun _ => ih fun later hlater => each later (by simp [hlater])

end Meets

end AdCoder.Foundation.Section
